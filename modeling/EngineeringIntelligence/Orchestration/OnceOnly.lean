import EngineeringIntelligence.Orchestration.Runner

namespace EngineeringIntelligence.Orchestration

open EngineeringIntelligence.Framework

/-! How often a handler's effect happens for one job. The queue delivers a job again after a
failure and after a lease that ran out, whatever its handler has done by then. -/

section
variable {ε χ : Type} (p : ε → Bool)

/-- How many effects of the kind `p` were made for job `id`. -/
def Runners.done (s : Runners ε) (id : String) : Nat :=
  s.effects.countP (fun e => e.1 = id && p e.2)

/-- A lease that ran out is taken over only when no worker has the job and nothing was done
for it, and a job for which something was done is not put back by `fail`. -/
def SparesDone (s : Runners ε) : RunnerOp χ → Prop
  | .claim _ _ now => ∀ row, s.queue.nextJob now = some row → row.status = .leased →
      s.done p row.jobId = 0 ∧ ∀ w job, (s.phase w).job = some job → job.jobId ≠ row.jobId
  | .failWrite w _ => ∀ job seen message now, s.phase w = .failing job seen message now →
      seen.attempts < seen.maxAttempts → s.done p job.jobId = 0
  | _ => True

/-- A job is in one worker's hands at most, and there nothing has been done for it yet. -/
structure Once (s : Runners ε) : Prop where
  alone : ∀ w w' job job', (s.phase w).job = some job → (s.phase w').job = some job' →
    job.jobId = job'.jobId → w = w'
  leased : ∀ w job, (s.phase w).job = some job →
    ∃ row, s.queue.get job.jobId = some row ∧ row.status = .leased
  fresh : ∀ w job, s.phase w = .claimed job → s.done p job.jobId = 0
  spent : ∀ id, 0 < s.done p id → ∃ row, s.queue.get id = some row ∧ row.status ≠ .queued
  once : ∀ id, s.done p id ≤ 1

end

section
variable {ε χ : Type} {p : ε → Bool} {handler : Job → χ → Handling ε} {s : Runners ε}
  {op : RunnerOp χ}

/-- Only handling a job does anything for it. -/
theorem next_done (p : ε → Bool) (handler : Job → χ → Handling ε) (s : Runners ε) (op : RunnerOp χ)
    (id : String) :
    (s.next handler op).done p id = s.done p id ∨
      ∃ w world job, op = .handle w world ∧ s.phase w = .claimed job ∧ job.jobId = id ∧
        (s.next handler op).queue = s.queue ∧
        (s.next handler op).done p id = s.done p id + (handler job world).effects.countP p := by
  generalize hnext : s.next handler op = s'
  have hchange := hnext ▸ next_change handler s op
  cases hchange with
  | stay hr => exact Or.inl rfl
  | enqueue j => exact Or.inl rfl
  | claim hidle hjob => exact Or.inl rfl
  | @handle w world job hphase =>
    simp only [Runners.done, Runners.setPhase_effects, Runners.setPhase_queue, List.countP_append,
      List.countP_map]
    by_cases hid : job.jobId = id
    · right
      refine ⟨w, world, job, rfl, hphase, hid, trivial, ?_⟩
      congr 1
      apply List.countP_congr
      intro e _
      simp [hid]
    · left
      have hzero : List.countP ((fun e : String × ε => decide (e.1 = id) && p e.2) ∘
          fun e => (job.jobId, e)) (handler job world).effects = 0 := by
        rw [List.countP_eq_zero]
        intro e _
        simp [hid]
      omega
  | complete hphase => exact Or.inl rfl
  | failRead hphase hseen => exact Or.inl rfl
  | failWrite hphase => exact Or.inl rfl
  | drop hr => exact Or.inl rfl

/-- A worker about to handle a job was so before, or claims it in this step. -/
theorem next_claimed {w : Nat} {job : Job} (h : (s.next handler op).phase w = .claimed job) :
    s.phase w = .claimed job ∨ ∃ leaseSeconds now row, op = .claim w leaseSeconds now ∧
      s.queue.nextJob now = some row ∧ job = row.lease (now + leaseSeconds) := by
  have hjob : ((s.next handler op).phase w).job = some job := by rw [h]; rfl
  rcases next_job hjob with hold | ⟨l, now, row, hop, hnext, heq, -⟩
  · left
    generalize hnext : s.next handler op = s' at h
    have hchange := hnext ▸ next_change handler s op
    -- a step that sets a phase other than by claiming leaves the worker past this point
    cases hchange with
    | stay hr => exact h
    | enqueue j => exact h
    | claim hidle hclaim =>
      rw [Runners.setPhase_phase] at h
      split at h
      · next hw =>
        rw [hw, hidle] at hold
        cases hold
      · exact h
    | handle hphase | complete hphase | failRead hphase hseen | failWrite hphase | drop hr =>
      rw [Runners.setPhase_phase] at h
      split at h
      · cases h
      · exact h
  · exact Or.inr ⟨l, now, row, hop, hnext, heq⟩

theorem next_handle_phase {w : Nat} {job : Job} {world : χ} (h : s.phase w = .claimed job) :
    (s.next handler (.handle w world)).phase w = .handled job (handler job world).outcome := by
  simp [Runners.next, h, Runners.setPhase_phase]

section
variable {leaseSeconds now : Rat} {w : Nat} {row : Job}

/-- The job a `claim` takes is nobody's, and nothing was done for it. -/
theorem done_of_next (h : Once p s)
    (hok : SparesDone p s (.claim w leaseSeconds now : RunnerOp χ))
    (hnext : s.queue.nextJob now = some row) : s.done p row.jobId = 0 := by
  obtain ⟨hget, hqueued | hleased⟩ := nextJob_spec hnext
  · apply Nat.eq_zero_of_not_pos
    intro hpos
    obtain ⟨r, hr, hstatus⟩ := h.spent row.jobId hpos
    obtain rfl : row = r := Option.some.inj (hget.symm.trans hr)
    exact hstatus hqueued
  · exact (hok row hnext hleased).1

theorem free_of_next (h : Once p s)
    (hok : SparesDone p s (.claim w leaseSeconds now : RunnerOp χ))
    (hnext : s.queue.nextJob now = some row) {w' : Nat} {job : Job}
    (hjob : (s.phase w').job = some job) : job.jobId ≠ row.jobId := by
  intro hid
  obtain ⟨r, hr, hleased⟩ := h.leased w' job hjob
  rw [hid] at hr
  obtain rfl : row = r := Option.some.inj ((nextJob_spec hnext).1.symm.trans hr)
  exact (hok row hnext hleased).2 w' job hjob hid

end

theorem next_alone (h : Once p s) (hok : SparesDone p s op) {w w' : Nat} {job job' : Job}
    (hjob : ((s.next handler op).phase w).job = some job)
    (hjob' : ((s.next handler op).phase w').job = some job') (hid : job.jobId = job'.jobId) :
    w = w' := by
  rcases next_job hjob with hold | ⟨l, now, row, rfl, hnext, rfl, -⟩
  · rcases next_job hjob' with hold' | ⟨l, now, row, rfl, hnext, rfl, -⟩
    · exact h.alone w w' job job' hold hold' hid
    · exact absurd hid (free_of_next h hok hnext hold)
  · rcases next_job hjob' with hold' | ⟨l', now', row', hop, -⟩
    · exact absurd hid.symm (free_of_next h hok hnext hold')
    · cases hop
      rfl

/-- A report makes its job nobody's. -/
theorem free_of_reported (h : Once p s) {w : Nat} {job job₀ : Job}
    (hreported : s.reported op = some job₀) (hold : (s.phase w).job = some job)
    (hjob : ((s.next handler op).phase w).job = some job) : job₀.jobId ≠ job.jobId := by
  intro hid
  obtain ⟨w₀, hw₀, hnone⟩ := reported_idle handler hreported
  obtain rfl := h.alone w₀ w job₀ job hw₀ hold hid
  rw [hnone] at hjob
  cases hjob

theorem next_leased (h : Once p s) {w : Nat} {job : Job}
    (hjob : ((s.next handler op).phase w).job = some job) :
    ∃ row, (s.next handler op).queue.get job.jobId = some row ∧ row.status = .leased := by
  rcases next_job hjob with hold | ⟨l, now, row, -, -, rfl, hget⟩
  · obtain ⟨row, hrow, hleased⟩ := h.leased w job hold
    have hkey := Table.key_of_get hrow
    obtain ⟨row', hrow', hchange⟩ := next_row handler hrow op
    refine ⟨row', hrow', ?_⟩
    cases hchange with
    | same => exact hleased
    | lease hidle hnext => rfl
    | complete hphase hid =>
      have hfree := free_of_reported h (Runners.reported_complete hphase) hold hjob
      exact absurd (hid.trans hkey) hfree
    | fail hphase hid =>
      have hfree := free_of_reported h (Runners.reported_failWrite hphase) hold hjob
      exact absurd (hid.trans hkey) hfree
  · exact ⟨_, hget, rfl⟩

theorem next_fresh (h : Once p s) (hok : SparesDone p s op) {w : Nat} {job : Job}
    (hjob : (s.next handler op).phase w = .claimed job) :
    (s.next handler op).done p job.jobId = 0 := by
  have hzero : s.done p job.jobId = 0 := by
    rcases next_claimed hjob with hold | ⟨l, now, row, rfl, hnext, rfl⟩
    · exact h.fresh w job hold
    · have hdone : s.done p row.jobId = 0 := done_of_next h hok hnext
      exact hdone
  rcases next_done p handler s op job.jobId with hsame | hhandled
  · rw [hsame, hzero]
  · obtain ⟨w₀, world, job₀, rfl, hphase, hid, -⟩ := hhandled
    exfalso
    rcases next_claimed hjob with hold | ⟨l, now, row, hop, -⟩
    · obtain rfl := h.alone w₀ w job₀ job (by rw [hphase]; rfl) (by rw [hold]; rfl) hid
      rw [next_handle_phase hphase] at hjob
      cases hjob
    · cases hop

theorem next_spent (h : Once p s) (hok : SparesDone p s op) {id : String}
    (hpos : 0 < (s.next handler op).done p id) :
    ∃ row, (s.next handler op).queue.get id = some row ∧ row.status ≠ .queued := by
  rcases next_done p handler s op id with hsame | hhandled
  · rw [hsame] at hpos
    obtain ⟨row, hrow, hstatus⟩ := h.spent id hpos
    have hkey := Table.key_of_get hrow
    obtain ⟨row', hrow', hchange⟩ := next_row handler hrow op
    refine ⟨row', hrow', ?_⟩
    cases hchange with
    | same => exact hstatus
    | lease hidle hnext => exact nofun
    | complete hphase hid => exact nofun
    | @fail w base job seen message now hphase hid =>
      unfold Job.failed
      split
      · exact nofun
      · next hleft =>
        have hnone := hok job seen message now hphase (lt_of_not_ge hleft)
        rw [hid, hkey] at hnone
        omega
  · obtain ⟨w, world, job, rfl, hphase, rfl, hqueue, -⟩ := hhandled
    obtain ⟨row, hrow, hleased⟩ := h.leased w job (by rw [hphase]; rfl)
    refine ⟨row, by rw [hqueue, hrow], ?_⟩
    rw [hleased]
    exact nofun

theorem next_once (hhandler : ∀ job world, (handler job world).effects.countP p ≤ 1)
    (h : Once p s) (id : String) : (s.next handler op).done p id ≤ 1 := by
  rcases next_done p handler s op id with hsame | hhandled
  · rw [hsame]
    exact h.once id
  · obtain ⟨w, world, job, rfl, hphase, rfl, -, hdone⟩ := hhandled
    have hfresh := h.fresh w job hphase
    have hone := hhandler job world
    omega

theorem once_next (hhandler : ∀ job world, (handler job world).effects.countP p ≤ 1)
    (h : Once p s) (hok : SparesDone p s op) : Once p (s.next handler op) where
  alone := fun _ _ _ _ hjob hjob' hid => next_alone h hok hjob hjob' hid
  leased := fun _ _ hjob => next_leased h hjob
  fresh := fun _ _ hjob => next_fresh h hok hjob
  spent := fun _ hpos => next_spent h hok hpos
  once := next_once hhandler h

theorem once_initial : Once p (.initial : Runners ε) where
  alone := by
    intro w w' job job' hjob
    cases hjob
  leased := by
    intro w job hjob
    cases hjob
  fresh := by
    intro w job hjob
    cases hjob
  spent := by
    intro id hpos
    cases hpos
  once := by
    intro id
    exact Nat.zero_le 1

theorem once_run (hhandler : ∀ job world, (handler job world).effects.countP p ≤ 1)
    {ops : List (RunnerOp χ)}
    (h : Admissible (Runners.step handler) (SparesDone p) .initial ops) :
    Once p (runState (Runners.step handler) .initial ops) :=
  run_guarded (Runners.step handler) (fun _ _ hs hok => once_next hhandler hs hok) once_initial h

end

end EngineeringIntelligence.Orchestration
