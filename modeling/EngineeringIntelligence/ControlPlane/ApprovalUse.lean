import EngineeringIntelligence.ControlPlane.WorkflowLaw
import EngineeringIntelligence.Orchestration.Jobs

namespace EngineeringIntelligence.ControlPlane

open EngineeringIntelligence.Framework EngineeringIntelligence.State
open EngineeringIntelligence.Orchestration (JobQueue NewJob)

/-! How often one approval is accepted. Nothing remembers an approval once it was used: what
stands between it and a second use is the status of the workflow, where that is looked at. -/

/-- The control plane and the queue its remediations are put on. -/
structure Platform where
  ledger : Ledger
  queue : JobQueue

inductive PlatformOp where
  | call (op : ControlOp)
  | enqueue (job : NewJob)

def PlatformOp.approval : PlatformOp → Option Approval
  | .call op => op.approval
  | .enqueue _ => none

namespace Platform

def initial : Platform := ⟨.initial, Table.empty⟩

def step (sha256 : String → String) (hmac : String → String → String) (p : Platform) :
    PlatformOp → Platform × Option (Except ControlError WorkflowRecord)
  | .call op =>
    let (ledger, answer) := p.ledger.step sha256 hmac op
    ({ p with ledger := ledger }, some answer)
  | .enqueue job => ({ p with queue := p.queue.enqueue job }, none)

end Platform

section
variable (sha256 : String → String) (hmac : String → String → String)

/-- The platform after some operations on an empty one. -/
def afterOps (ops : List PlatformOp) : Platform := runState (Platform.step sha256 hmac) .initial ops

/-- Approvals are used once in a run. -/
structure SingleUse (ops : List PlatformOp) : Prop where
  /-- an approval that was accepted is refused from then on -/
  refused : ∀ pre op post, ops = pre ++ op :: post →
    ∀ a ∈ (afterOps sha256 hmac pre).ledger.accepted, op.approval = some a →
    ((afterOps sha256 hmac pre).step sha256 hmac op).2.any persisted = false
  once : (afterOps sha256 hmac ops).ledger.accepted.Nodup

/-- No plan is prepared again after an approval for it was accepted, and `approve_plan` is
called on workflows that wait for it. -/
def KeepsApproved (p : Platform) : PlatformOp → Prop
  | .call (.prepare plan _ _ _) => ∀ a ∈ p.ledger.accepted,
      a.workflowId = plan.workflowId → a.planHash ≠ plan.planHash sha256
  | .call (.approvePlan workflowId _ _ _ _) =>
      ∀ status ∈ p.ledger.state.status workflowId, status = .waitingApproval
  | _ => True

instance (p : Platform) : (op : PlatformOp) → Decidable (KeepsApproved sha256 p op)
  | .call (.prepare plan _ _ _) => inferInstanceAs (Decidable (∀ a ∈ p.ledger.accepted,
      a.workflowId = plan.workflowId → a.planHash ≠ plan.planHash sha256))
  | .call (.approvePlan workflowId _ _ _ _) => inferInstanceAs (Decidable
      (∀ status ∈ p.ledger.state.status workflowId, status = .waitingApproval))
  | .call (.approve ..) | .call (.finish ..) | .enqueue _ => isTrue trivial

end

/-- A plan for which an approval was accepted does not wait for one any more. -/
structure Spent (l : Ledger) : Prop where
  keyed : Keyed l.state
  spent : ∀ a ∈ l.accepted, ∃ r, l.state.record a.workflowId = some r ∧
    (r.planHash = some a.planHash → r.status ≠ .waitingApproval)
  once : l.accepted.Nodup

section
variable {sha256 : String → String} {hmac : String → String → String} {p : Platform}
  {op : ControlOp}

/-- An approval is accepted on a workflow that waits for it. -/
theorem writes_waiting {r : WorkflowRecord} {a : Approval} (hkeyed : Keyed p.ledger.state)
    (hok : KeepsApproved sha256 p (.call op)) (h : Writes sha256 hmac p.ledger.state op r)
    (ha : op.approval = some a) :
    p.ledger.state.status a.workflowId = some .waitingApproval := by
  cases h with
  | prepare hid hstatus hplan => cases ha
  | finish hold hid hstatus hkept => cases ha
  | approve hold hwaiting hplan hverified hid hstatus hkept =>
    cases ha
    rw [(verifyApproval_eq_true.mp hverified).1.1, hkeyed _ _ hold, status_of_record hold, hwaiting]
  | approvePlan hold hplan hverified hid hstatus hkept =>
    cases ha
    have hwaiting := hok _ (status_of_record hold)
    rw [(verifyApproval_eq_true.mp hverified).1.1, hkeyed _ _ hold, status_of_record hold, hwaiting]

theorem not_accepted_of_writes {r : WorkflowRecord} {a : Approval} (h : Spent p.ledger)
    (hok : KeepsApproved sha256 p (.call op)) (hwrites : Writes sha256 hmac p.ledger.state op r)
    (ha : op.approval = some a) : a ∉ p.ledger.accepted := by
  intro hmem
  have hwaiting := writes_waiting h.keyed hok hwrites ha
  obtain ⟨workflow, hrecord, hplan, -⟩ := writes_approval h.keyed hwrites ha
  obtain ⟨r', hr', hspent⟩ := h.spent a hmem
  obtain rfl : workflow = r' := Option.some.inj (hrecord.symm.trans hr')
  rw [status_of_record hrecord] at hwaiting
  exact hspent hplan (Option.some.inj hwaiting)

theorem replay_refused {a : Approval} (h : Spent p.ledger)
    (hok : KeepsApproved sha256 p (.call op)) (ha : op.approval = some a)
    (hmem : a ∈ p.ledger.accepted) :
    persisted (p.ledger.state.step sha256 hmac op).2 = false := by
  cases step_outcome sha256 hmac p.ledger.state op with
  | refused hanswer hrecord => exact hanswer
  | written r hanswer hwrites hrecord =>
    exact absurd hmem (not_accepted_of_writes h hok hwrites ha)

/-- What a written record leaves of the approvals used so far. -/
theorem spent_of_writes {r : WorkflowRecord} {a : Approval}
    (hok : KeepsApproved sha256 p (.call op)) (hwrites : Writes sha256 hmac p.ledger.state op r)
    (hmem : a ∈ p.ledger.accepted) (hid : a.workflowId = r.workflowId)
    (hplan : r.planHash = some a.planHash) : r.status ≠ .waitingApproval := by
  intro hwaiting
  cases hwrites with
  | prepare hid' hstatus hplan' =>
    refine hok a hmem (hid.trans hid') ?_
    exact Option.some.inj (hplan.symm.trans hplan')
  | approve hold _ _ _ _ hstatus _ =>
    rw [hstatus] at hwaiting
    cases hwaiting
  | approvePlan hold _ _ _ hstatus _ =>
    rw [hstatus] at hwaiting
    cases hwaiting
  | @finish _ status _ _ _ _ _ hold _ hstatus _ =>
    rw [hstatus] at hwaiting
    cases status <;> cases hwaiting

theorem spent_call (h : Spent p.ledger) (hok : KeepsApproved sha256 p (.call op)) :
    Spent (p.ledger.step sha256 hmac op).1 := by
  cases step_outcome sha256 hmac p.ledger.state op with
  | refused hanswer hrecord =>
    have haccepted : (p.ledger.step sha256 hmac op).1.accepted = p.ledger.accepted := by
      rw [accepted_step, hanswer]
      exact List.append_nil _
    refine ⟨keyed_step h.keyed, ?_, haccepted ▸ h.once⟩
    intro a ha
    rw [haccepted] at ha
    obtain ⟨r, hr, hspent⟩ := h.spent a ha
    exact ⟨r, (congrFun hrecord _).trans hr, hspent⟩
  | written r hanswer hwrites hrecord =>
    have haccepted : (p.ledger.step sha256 hmac op).1.accepted =
        p.ledger.accepted ++ op.approval.toList := by
      rw [accepted_step, hanswer, if_pos rfl]
    refine ⟨keyed_step h.keyed, ?_, ?_⟩
    · intro a ha
      change ∃ r, (p.ledger.state.step sha256 hmac op).1.record a.workflowId = some r ∧ _
      rw [haccepted, List.mem_append, Option.mem_toList] at ha
      rw [hrecord]
      rcases ha with hold | hnew
      · split
        · next hid => exact ⟨r, rfl, fun hplan => spent_of_writes hok hwrites hold hid hplan⟩
        · exact h.spent a hold
      · obtain ⟨-, -, -, hid, hstatus, -⟩ := writes_approval h.keyed hwrites hnew
        refine ⟨r, if_pos hid.symm, ?_⟩
        intro _
        rw [hstatus]
        exact nofun
    · rw [haccepted]
      cases ha : op.approval with
      | none =>
        rw [Option.toList_none, List.append_nil]
        exact h.once
      | some a =>
        have hnew := not_accepted_of_writes h hok hwrites ha
        rw [Option.toList_some, List.nodup_append]
        refine ⟨h.once, List.nodup_singleton a, ?_⟩
        intro b hb c hc hbc
        rw [List.mem_singleton] at hc
        exact hnew (hc ▸ hbc ▸ hb)

theorem spent_step {op : PlatformOp} (h : Spent p.ledger) (hok : KeepsApproved sha256 p op) :
    Spent (p.step sha256 hmac op).1.ledger := by
  cases op with
  | call op => exact spent_call h hok
  | enqueue job => exact h

theorem spent_after {ops : List PlatformOp}
    (h : Admissible (Platform.step sha256 hmac) (KeepsApproved sha256) .initial ops) :
    Spent (afterOps sha256 hmac ops).ledger := by
  refine run_guarded (Platform.step sha256 hmac) (P := fun p => Spent p.ledger)
    (fun p op hp hok => spent_step hp hok) ?_ h
  exact ⟨keyed_initial, nofun, List.nodup_nil⟩

/-- Approvals are used once where approved plans are left alone. -/
theorem approvals_single_use {ops : List PlatformOp}
    (h : Admissible (Platform.step sha256 hmac) (KeepsApproved sha256) .initial ops) :
    SingleUse sha256 hmac ops where
  refused := by
    intro pre op post hops a ha hop
    rw [hops, admissible_append] at h
    cases op with
    | call op => exact replay_refused (spent_after h.1) h.2.1 hop ha
    | enqueue job => cases hop
  once := (spent_after h).once

end

/-- The approval of `restartPlan` presented to `approve` at the given time. -/
def approveRestart (current : Int) : PlatformOp :=
  .call (.approve "remediation:INC-7" restartApproval "s3cret" current (.ok ()))

def finishRestart : PlatformOp :=
  .call (.finish "remediation:INC-7" .succeeded (some "restart-1") none (.ok ()))

/-- Presented three times, the approval is accepted the first time. -/
theorem approve_restart_once :
    let ops := [.call prepareRestart, approveRestart 1010, approveRestart 1020, finishRestart,
      approveRestart 1030]
    (afterOps restartSha256 restartHmac ops).ledger.accepted = [restartApproval] ∧
      SingleUse restartSha256 restartHmac ops :=
  ⟨by decide +kernel, approvals_single_use (by decide +kernel)⟩

/-- `approve_plan` accepts the same approval again, and so does `approve` once the same plan
has been prepared anew. -/
theorem approval_replayed :
    ¬ SingleUse restartSha256 restartHmac [.call prepareRestart,
        .call (.approvePlan "remediation:INC-7" restartApproval "s3cret" 1010 (.ok ())),
        .call (.approvePlan "remediation:INC-7" restartApproval "s3cret" 1020 (.ok ()))] ∧
      ¬ SingleUse restartSha256 restartHmac [.call prepareRestart, approveRestart 1010,
        finishRestart, .call prepareRestart, approveRestart 1020] := by
  refine And.imp (mt SingleUse.once) (mt SingleUse.once) ?_
  decide +kernel

end EngineeringIntelligence.ControlPlane
