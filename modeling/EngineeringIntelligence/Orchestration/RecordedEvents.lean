import EngineeringIntelligence.Framework.Course
import EngineeringIntelligence.Orchestration.ActionGates
import EngineeringIntelligence.Orchestration.RemediationRuns

namespace EngineeringIntelligence.Orchestration

open EngineeringIntelligence.Framework EngineeringIntelligence.State
open EngineeringIntelligence.Remediation (ExecutionResult ExecutionStatus)

/-! The lifecycle events of a remediation workflow form one course through the transition
table, whichever way the run takes, and every attempt at an activity plays a part of it. -/

/-! ### Valid events -/

/-- The steps that lifecycle events of the workflow are named after. -/
def remediationSteps : List String :=
  ["evidence", "planned", "awaiting-approval", "executing", "verifying", "outcome"]

def remediationActions : List String :=
  ["collect-remediation-evidence", "prepare-remediation", "await-human-approval",
    "execute-remediation", "verify-remediation", "finish-remediation"]

def remediationActor : String := "agent:remediation-workflow"

theorem isIdentifier_action : ∀ action ∈ remediationActions, isIdentifier action = true := by
  decide

/-- The characters of a request identifier. -/
theorem requestIdentifier_chars {s : String} (h : isRequestIdentifier s = true) :
    s.toList.length ≤ 128 ∧
      ∀ c ∈ s.toList, (c.isAlphanum || "._:/@-".toList.contains c) = true := by
  have hextra : ∀ c, "._:-".toList.contains c = true → "._:/@-".toList.contains c = true := by
    intro c hc
    rw [List.contains_iff_mem] at hc ⊢
    have hlist : "._:-".toList = ['.', '_', ':', '-'] := by decide
    simp only [hlist, List.mem_cons, List.not_mem_nil, or_false] at hc
    rcases hc with rfl | rfl | rfl | rfl <;> decide
  unfold isRequestIdentifier at h
  cases hs : s.toList with
  | nil => simp
  | cons c cs =>
    rw [hs] at h
    simp only [Bool.and_eq_true, decide_eq_true_eq, List.all_eq_true] at h
    obtain ⟨⟨hfirst, hlength⟩, hrest⟩ := h
    refine ⟨by rw [List.length_cons]; omega, ?_⟩
    intro d hd
    rcases List.mem_cons.mp hd with rfl | hd
    · rw [hfirst, Bool.true_or]
    · have hchar := hrest d hd
      rw [Bool.or_eq_true] at hchar ⊢
      exact hchar.imp id (hextra d)

theorem isIdentifier_of_request {s : String} (h : isRequestIdentifier s = true) :
    isIdentifier s = true := by
  obtain ⟨hlength, hchars⟩ := requestIdentifier_chars h
  unfold isRequestIdentifier at h
  unfold isIdentifier
  cases hs : s.toList with
  | nil => simp [hs] at h
  | cons c cs =>
    rw [hs] at h hlength hchars
    simp only [Bool.and_eq_true, decide_eq_true_eq, List.all_eq_true] at h ⊢
    have hbound : cs.length ≤ 191 := by
      rw [List.length_cons] at hlength
      omega
    exact ⟨⟨h.1.1, hbound⟩, fun d hd => hchars d (List.mem_cons_of_mem c hd)⟩

/-- Texts put after a workflow id leave it an identifier, if they are not too long. -/
theorem isIdentifier_workflowId {requestId rest : String} (h : isRequestIdentifier requestId = true)
    (hlength : rest.toList.length ≤ 52)
    (hrest : ∀ c ∈ rest.toList, (c.isAlphanum || "._:/@-".toList.contains c) = true) :
    isIdentifier ("remediation:" ++ requestId ++ rest) = true := by
  obtain ⟨hbound, hchars⟩ := requestIdentifier_chars h
  have hlist : ("remediation:" ++ requestId ++ rest).toList =
      'r' :: ("emediation:".toList ++ requestId.toList ++ rest.toList) := by
    rw [String.toList_append, String.toList_append]
    rfl
  have hfront : ∀ c ∈ "emediation:".toList,
      (c.isAlphanum || "._:/@-".toList.contains c) = true := List.all_eq_true.mp (by decide)
  unfold isIdentifier
  rw [hlist]
  simp only [Bool.and_eq_true, decide_eq_true_eq, List.all_eq_true]
  refine ⟨⟨by decide, ?_⟩, ?_⟩
  · have heleven : "emediation:".toList.length = 11 := by decide
    rw [List.length_append, List.length_append, heleven]
    omega
  · simp only [List.forall_mem_append]
    exact ⟨⟨hfront, hchars⟩, hrest⟩

/-- The name of a step of a request's workflow. -/
def stepId (request : RemediationRequest) (step : String) : String :=
  request.workflowId ++ ":" ++ step

theorem isIdentifier_stepId {request : RemediationRequest}
    (h : isRequestIdentifier request.requestId = true) {step : String}
    (hstep : step ∈ remediationSteps) : isIdentifier (stepId request step) = true := by
  have hknown : ∀ step ∈ remediationSteps, (":" ++ step).toList.length ≤ 52 ∧
      (":" ++ step).toList.all (fun c => c.isAlphanum || "._:/@-".toList.contains c) = true := by
    decide
  obtain ⟨hlength, hall⟩ := hknown step hstep
  have hchars := List.all_eq_true.mp hall
  unfold stepId RemediationRequest.workflowId
  rw [String.append_assoc]
  exact isIdentifier_workflowId h hlength hchars

theorem stepId_injective {request : RemediationRequest} {step step' : String}
    (h : stepId request step = stepId request step') : step = step' :=
  (String.append_right_inj _).mp h

theorem requestIdentifiers_of_valid {request : RemediationRequest} (h : request.validate = none) :
    ∀ p ∈ request.identifiers, isRequestIdentifier p.2 = true := by
  intro p hp
  simp only [RemediationRequest.validate, Option.map_eq_none_iff, List.find?_eq_none] at h
  have hcheck := h (isRequestIdentifier p.2, p.1 ++ " must be a bounded opaque identifier")
    (List.mem_append_left _ (List.mem_map_of_mem (f := fun p : String × String =>
      (isRequestIdentifier p.2, p.1 ++ " must be a bounded opaque identifier")) hp))
  simpa using hcheck

/-- The identity of the records of a request. -/
def requestIdentity (request : RemediationRequest) : List (String × String) :=
  [("tenant_id", request.tenantId), ("service_id", request.service),
    ("environment", request.environment), ("kind", "remediation"),
    ("correlation_id", request.correlationId)]

/-- A record of the request's workflow. -/
structure StandsAt (request : RemediationRequest) (status : WorkflowStatus) (version : Int)
    (r : WorkflowRecord) : Prop where
  status : r.status = status
  version : r.version = version
  positive : 1 ≤ r.version
  identity : r.identity = requestIdentity request

/-- An advance of the workflow from where its record stands. -/
structure Fits (request : RemediationRequest) (current : Option WorkflowRecord) (a : Advance) :
    Prop where
  step : a.step ∈ remediationSteps
  action : a.action ∈ remediationActions
  fromStatus : a.fromStatus = current.map (·.status)
  expectedVersion : a.expectedVersion = current.map (·.version)
  allowed : a.toStatus ∈ allowedTransitions a.fromStatus
  standing : ∀ r ∈ current, StandsAt request r.status r.version r
  planHash : a.planHash.all isPlanHash = true
  time : ∃ t : UtcTime, a.occurredAt = t.isoformat

section
variable {request : RemediationRequest} {current : Option WorkflowRecord} {a : Advance}

theorem Fits.valid (h : Fits request current a) (hrequest : request.validate = none) :
    (a.event remediationActor request).validate = none := by
  have hids := requestIdentifiers_of_valid hrequest
  have hrequestId : isRequestIdentifier request.requestId = true := hids ("request_id", _) (by
    simp [RemediationRequest.identifiers])
  have hstep := isIdentifier_stepId hrequestId h.step
  have hworkflow : isIdentifier request.workflowId = true := by
    have hnothing : isIdentifier ("remediation:" ++ request.requestId ++ "") = true :=
      isIdentifier_workflowId hrequestId (by decide) (by simp)
    rwa [String.append_empty] at hnothing
  have htenant : isIdentifier request.tenantId = true :=
    isIdentifier_of_request (hids ("tenant_id", _) (by simp [RemediationRequest.identifiers]))
  have hservice : isIdentifier request.service = true :=
    isIdentifier_of_request (hids ("service", _) (by simp [RemediationRequest.identifiers]))
  have henvironment : isIdentifier request.environment = true :=
    isIdentifier_of_request (hids ("environment", _) (by simp [RemediationRequest.identifiers]))
  have hcorrelation : isIdentifier request.correlationId = true :=
    isIdentifier_of_request (hids ("correlation_id", _) (by simp [RemediationRequest.identifiers]))
  have hkind : isIdentifier "remediation" = true := by decide
  have hactor : isIdentifier remediationActor = true := by decide
  have haction := isIdentifier_action a.action h.action
  obtain ⟨t, ht⟩ := h.time
  have htime : fromisoformat a.occurredAt = _ := (congrArg fromisoformat ht).trans
    (UtcTime.fromisoformat_isoformat t)
  have hversion : a.expectedVersion.all (1 ≤ ·) = true := by
    rw [h.expectedVersion]
    cases hcurrent : current with
    | none => rfl
    | some r =>
      have hstands := h.standing r hcurrent
      simpa using hstands.positive
  have hfrom : a.fromStatus = none → a.expectedVersion = none ∧ a.toStatus = .received := by
    intro hnone
    have hallowed := h.allowed
    rw [hnone] at hallowed
    have hcurrent : current = none := by simpa [h.fromStatus] using hnone
    rw [h.expectedVersion, hcurrent]
    exact ⟨rfl, by simpa [allowedTransitions] using hallowed⟩
  have hexisting : (a.fromStatus.isNone || a.expectedVersion.isSome) = true := by
    rw [h.fromStatus, h.expectedVersion]
    cases current <;> rfl
  have hallowed : (allowedTransitions a.fromStatus).contains a.toStatus = true :=
    List.contains_iff_mem.mpr h.allowed
  unfold stepId at hstep
  rw [WorkflowLifecycleEvent.validate, Option.map_eq_none_iff, List.find?_eq_none]
  intro c hc
  simp only [WorkflowLifecycleEvent.checks, WorkflowLifecycleEvent.identifiers, Advance.event,
    List.map_cons, List.map_nil, List.mem_append, List.mem_cons, List.not_mem_nil, or_false,
    hstep, hworkflow, htenant, hservice, henvironment, hkind, hcorrelation, hactor, haction,
    h.planHash, hversion, hexisting, hallowed, htime] at hc
  rcases hc with (hc | hc | hc | hc | hc | hc | hc | hc | hc | hc) | hc | hc | hc | hc | hc | hc | hc |
    hc | hc | hc <;> subst hc <;> first | exact Bool.false_ne_true | skip
  simp only [Bool.not_eq_true', Bool.not_eq_false, Bool.or_eq_true, Bool.and_eq_true,
    Option.isNone_iff_eq_none]
  cases hstatus : a.fromStatus with
  | none => exact Or.inr ⟨(hfrom hstatus).1, decide_eq_true (hfrom hstatus).2⟩
  | some status => exact Or.inl rfl

theorem identityChange_of_standing {r : WorkflowRecord} {status : WorkflowStatus} {version : Int}
    (h : StandsAt request status version r) (a : Advance) (actor : String) :
    (a.event actor request).identityChange r = none := by
  have hidentity := h.identity
  simp only [WorkflowRecord.identity, requestIdentity, List.cons.injEq, Prod.mk.injEq] at hidentity
  obtain ⟨⟨-, htenant⟩, ⟨-, hservice⟩, ⟨-, henvironment⟩, ⟨-, hkind⟩, ⟨-, hcorrelation⟩, -⟩ := hidentity
  simp [WorkflowLifecycleEvent.identityChange, WorkflowRecord.identity,
    WorkflowLifecycleEvent.identity, Advance.event, htenant, hservice, henvironment, hkind,
    hcorrelation]

/-- An advance that fits is taken. -/
theorem Fits.advance (h : Fits request current a) (hrequest : request.validate = none) :
    ∃ r, State.advance current (a.event remediationActor request) = .ok r ∧
      StandsAt request a.toStatus ((current.map (·.version)).getD 0 + 1) r := by
  have hvalid := h.valid hrequest
  have hexpected : assertExpected (current.map (·.version))
      (a.event remediationActor request).expectedVersion = .ok () := by
    change assertExpected _ a.expectedVersion = _
    rw [h.expectedVersion, assertExpected, if_neg]
    simp
  have hfrom : (a.event remediationActor request).fromStatus = current.map (·.status) := h.fromStatus
  unfold State.advance WorkflowLifecycleEvent.applyTo
  rw [hexpected, hvalid]
  cases current with
  | none =>
    rw [hfrom]
    exact ⟨_, rfl, rfl, rfl, Int.le_refl 1, rfl⟩
  | some r =>
    have hstands := h.standing r rfl
    dsimp only
    rw [hfrom, Option.map_some, identityChange_of_standing hstands a]
    dsimp only
    rw [if_neg (not_not.mpr rfl)]
    refine ⟨_, rfl, rfl, rfl, ?_, hstands.identity⟩
    have hpositive := hstands.positive
    dsimp only
    omega

/-- An event that was taken stands where its workflow stood. -/
theorem matches_of_advance {e : WorkflowLifecycleEvent} {r : WorkflowRecord}
    (h : State.advance current e = .ok r) :
    e.fromStatus = current.map (·.status) ∧ e.expectedVersion = current.map (·.version) := by
  have hvalid := (advance_ok h).valid
  have hexistingCheck : ((e.fromStatus.isNone || e.expectedVersion.isSome),
      "an existing workflow transition requires an expected version") ∈ e.checks := by
    simp [WorkflowLifecycleEvent.checks]
  have hnewCheck : ((e.fromStatus.isSome || (e.expectedVersion.isNone && e.toStatus = .received)),
      "a new workflow must transition to received without an expected version") ∈ e.checks := by
    simp [WorkflowLifecycleEvent.checks]
  have hexisting := mem_checks_of_validate hvalid hexistingCheck
  have hnew := mem_checks_of_validate hvalid hnewCheck
  unfold State.advance at h
  cases hexpected : assertExpected (current.map (·.version)) e.expectedVersion with
  | error x => simp [hexpected] at h
  | ok u =>
    simp only [hexpected, WorkflowLifecycleEvent.applyTo, hvalid] at h
    have hversion : e.expectedVersion.isSome = true → current.map (·.version) = e.expectedVersion := by
      intro hsome
      simpa [assertExpected, hsome] using hexpected
    cases current with
    | none =>
      cases hfrom : e.fromStatus with
      | none =>
        simp only [hfrom, Option.isSome_none, Bool.false_or, Bool.and_eq_true,
          Option.isNone_iff_eq_none] at hnew
        exact ⟨rfl, hnew.1⟩
      | some status => simp [hfrom] at h
    | some c =>
      cases hfrom : e.fromStatus with
      | none => simp [hfrom] at h
      | some status =>
        simp only [hfrom, Option.isNone_some, Bool.false_or] at hexisting h
        refine ⟨?_, (hversion hexisting).symm⟩
        by_cases hstatus : c.status = status
        · rw [Option.map_some, hstatus]
        · simp [hstatus] at h

end

/-! ### Stages of the course -/

/-- No two steps of the workflow get one key. -/
def DistinctKeys (key : String → String) (request : RemediationRequest) : Prop :=
  ∀ step ∈ remediationSteps, ∀ step' ∈ remediationSteps,
    key (stepId request step) = key (stepId request step') → step = step'

/-- A course of the workflow: the steps on it, and the status and version of the record it
leads to. -/
structure Stage (sha256 key : String → String) (request : RemediationRequest)
    (course : List (WorkflowLifecycleEvent × WorkflowRecord)) (steps : List String)
    (place : Option (WorkflowStatus × Int)) : Prop where
  lawful : (lifecycleRules sha256 key).Course request.workflowId course
  names : course.map (fun p => (p.1.eventId, p.1.idempotencyKey)) =
    steps.map (fun step => (stepId request step, stepId request step))
  known : ∀ step ∈ steps, step ∈ remediationSteps
  reached : (course.getLast?.map Prod.snd).map (fun r => (r.status, r.version)) = place
  standing : ∀ r ∈ course.getLast?.map Prod.snd, StandsAt request r.status r.version r

/-- An advance that continues a course. -/
structure Continues (place : Option (WorkflowStatus × Int)) (steps : List String) (a : Advance) :
    Prop where
  step : a.step ∈ remediationSteps ∧ a.step ∉ steps
  action : a.action ∈ remediationActions
  fromStatus : a.fromStatus = place.map (·.1)
  expectedVersion : a.expectedVersion = place.map (·.2)
  allowed : a.toStatus ∈ allowedTransitions a.fromStatus
  planHash : a.planHash.all isPlanHash = true
  time : ∃ t : UtcTime, a.occurredAt = t.isoformat

section
variable {sha256 key : String → String} {request : RemediationRequest}
  {course : List (WorkflowLifecycleEvent × WorkflowRecord)} {steps : List String}
  {place : Option (WorkflowStatus × Int)} {a : Advance}

theorem stage_nil : Stage sha256 key request [] [] none :=
  ⟨JournalRules.course_nil, rfl, by simp, rfl, by simp⟩

theorem Stage.fits (h : Stage sha256 key request course steps place) (ha : Continues place steps a) :
    Fits request (course.getLast?.map Prod.snd) a where
  step := ha.step.1
  action := ha.action
  fromStatus := by
    rw [ha.fromStatus, ← h.reached, Option.map_map]
    rfl
  expectedVersion := by
    rw [ha.expectedVersion, ← h.reached, Option.map_map]
    rfl
  allowed := ha.allowed
  standing := h.standing
  planHash := ha.planHash
  time := ha.time

/-- A course goes on with an advance that continues it. -/
theorem Stage.snoc (h : Stage sha256 key request course steps place) (ha : Continues place steps a)
    (hrequest : request.validate = none) (hkeys : DistinctKeys key request) :
    ∃ r, r.version = (place.map (·.2)).getD 0 + 1 ∧
      Stage sha256 key request (course ++ [(a.event remediationActor request, r)])
        (steps ++ [a.step]) (some (a.toStatus, (place.map (·.2)).getD 0 + 1)) := by
  obtain ⟨r, hadvance, hstands⟩ := (h.fits ha).advance hrequest
  have hversion : ((course.getLast?.map Prod.snd).map (·.version)).getD 0 =
      (place.map (·.2)).getD 0 := by
    simp only [← h.reached, Option.map_map]
    rfl
  rw [hversion] at hstands
  -- the names on the course are those of other steps
  have hother : ∀ p ∈ course, ∃ step ∈ steps, p.1.eventId = stepId request step ∧
      p.1.idempotencyKey = stepId request step := by
    intro p hp
    have hname : (p.1.eventId, p.1.idempotencyKey) ∈
        steps.map (fun step => (stepId request step, stepId request step)) := by
      rw [← h.names]
      exact List.mem_map_of_mem (f := fun p => (p.1.eventId, p.1.idempotencyKey)) hp
    obtain ⟨step, hstep, hpair⟩ := List.mem_map.mp hname
    obtain ⟨hid, hkey⟩ := Prod.mk.inj hpair
    exact ⟨step, hstep, hid.symm, hkey.symm⟩
  refine ⟨r, hstands.version, ?_, ?_, ?_, ?_, ?_⟩
  · refine h.lawful.snoc rfl hadvance ?_ ?_
    · intro p hp hsame
      obtain ⟨step, hstep, -, hkey⟩ := hother p hp
      change key p.1.idempotencyKey = key (stepId request a.step) at hsame
      rw [hkey] at hsame
      exact ha.step.2 (hkeys step (h.known step hstep) a.step ha.step.1 hsame ▸ hstep)
    · intro p hp hsame
      obtain ⟨step, hstep, hid, -⟩ := hother p hp
      change p.1.eventId = stepId request a.step at hsame
      rw [hid] at hsame
      exact ha.step.2 (stepId_injective hsame ▸ hstep)
  · rw [List.map_append, List.map_append, h.names]
    rfl
  · exact List.forall_mem_append.mpr ⟨h.known, List.forall_mem_singleton.mpr ha.step.1⟩
  · rw [List.getLast?_append]
    simp [hstands.status, hstands.version]
  · rw [List.getLast?_append]
    simp only [List.getLast?_singleton, Option.some_or, Option.map_some, Option.mem_def,
      Option.some.injEq]
    rintro _ rfl
    exact ⟨rfl, rfl, hstands.positive, hstands.identity⟩

end

/-! ### What the activities play -/

/-- An answer to an event carries the version of its record. -/
def RepliesWith (_ : WorkflowLifecycleEvent) (r : WorkflowRecord)
    (result : WorkflowLifecycleActivityResult) : Prop :=
  result.workflowVersion = r.version

/-- An activity that returns has played the course to its end. -/
def Ends {α : Type} (course : List (WorkflowLifecycleEvent × WorkflowRecord)) (Good : α → Prop)
    (k : Nat) (result : Except ActivityError α) : Prop :=
  ∀ a, result = .ok a → k = course.length ∧ Good a

/-- An activity that plays the course from a position on. -/
def Plays {α : Type} (course : List (WorkflowLifecycleEvent × WorkflowRecord)) (Good : α → Prop) :
    Nat → ActivityScript α → Prop :=
  Follows LifecycleCall.event RepliesWith course (Ends course Good)

section
variable {α β : Type} {course : List (WorkflowLifecycleEvent × WorkflowRecord)} {Good : α → Prop}
  {k : Nat}

theorem plays_error (x : ActivityError) : Plays course Good k (.finish (.error x)) :=
  .finish (by intro a ha; cases ha)

theorem plays_finish {a : α} (hk : k = course.length) (ha : Good a) :
    Plays course Good k (.finish (.ok a)) := by
  refine .finish ?_
  intro b hb
  rw [← Except.ok.inj hb]
  exact ⟨hk, ha⟩

theorem plays_checked {x : Except ActivityError β} {next : β → ActivityScript α}
    (h : ∀ b, x = .ok b → Plays course Good k (next b)) : Plays course Good k (checked x next) := by
  cases x with
  | error x => exact plays_error x
  | ok b => exact h b rfl

theorem plays_advance {request : RemediationRequest} (hrequest : request.validate = none)
    {a : Advance} {r : WorkflowRecord} {next : WorkflowLifecycleActivityResult → ActivityScript α}
    (hk : course[k]? = some (a.event remediationActor request, r))
    (hnext : ∀ result, result.workflowVersion = r.version →
      Plays course Good (k + 1) (next result)) :
    Plays course Good k (Orchestration.advance remediationActor request a next) := by
  unfold Orchestration.advance validRequest
  rw [hrequest]
  exact .call hk hnext

theorem Plays.map {f : α → β} {Good' : β → Prop} {script : ActivityScript α}
    (h : Plays course Good k script) (hgood : ∀ a, Good a → Good' (f a)) :
    Plays course Good' k (script.map (·.map f)) := by
  have hends : Follows LifecycleCall.event RepliesWith course
      (fun k (result : Except ActivityError α) => Ends course Good' k (result.map f)) k script := by
    refine Follows.mono h (List.prefix_refl course) ?_
    intro k result hresult b hb
    cases result with
    | error x => cases hb
    | ok a =>
      obtain ⟨hk, ha⟩ := hresult a rfl
      rw [← Except.ok.inj hb]
      exact ⟨hk, hgood a ha⟩
  exact hends.map

end

theorem requireStepTime_isoformat (t : UtcTime) : requireStepTime t.isoformat = .ok t.isoformat := by
  unfold requireStepTime
  rw [t.strip_isoformat, if_neg t.isoformat_ne_empty]

/-- The digits that a hex digest is written in. -/
def HexDigest (text : String) : Prop :=
  text.toList.length = 64 ∧ text.toList.all (fun c => c.isDigit || ('a' ≤ c && c ≤ 'f')) = true

/-- The test on a text that is given by its characters. -/
theorem hexDigest_ofList {cs : List Char} (hlength : cs.length = 64)
    (hdigits : cs.all (fun c => c.isDigit || ('a' ≤ c && c ≤ 'f')) = true) : HexDigest (String.ofList cs) := by
  rw [HexDigest, String.toList_ofList]
  exact ⟨hlength, hdigits⟩

theorem isPlanHash_of_hexDigest {digest : String} (h : HexDigest digest) :
    isPlanHash ("sha256:" ++ digest) = true := by
  have hlist : ("sha256:" ++ digest).toList = "sha256:".toList ++ digest.toList :=
    String.toList_append
  have hseven : "sha256:".toList.length = 7 := by decide
  unfold isPlanHash
  rw [hlist, List.take_left' hseven, List.drop_left' hseven, List.length_append, hseven, h.1, h.2]
  simp

theorem ne_empty_of_isPlanHash {text : String} (h : isPlanHash text = true) : text ≠ "" := by
  rintro rfl
  cases h

theorem proceed_of_approvable {plan : RemediationPlanResult} (h : Approvable plan) :
    (decideAfterPlan plan).proceed = true := by
  obtain ⟨runbookId, hrunbook, hrunbookId⟩ := h.runbookId
  obtain ⟨planHash, hhash, hplanHash⟩ := h.planHash
  unfold decideAfterPlan
  rw [if_neg]
  · rfl
  · simp [h.planned, hrunbook, hhash, isMissing, hrunbookId, hplanHash]

theorem runbookId_of_plan {hypotheses : List IncidentHypothesis} {plan : RemediationPlan}
    (h : planFromIncident hypotheses = some plan) : plan.runbookId ≠ "" := by
  have hselected : ∀ select : String → Option (String × String),
      (∀ title choice, select title = some choice → choice.1 ≠ "") →
      firstPlan select hypotheses = some plan → plan.runbookId ≠ "" := by
    intro select hselect hfirst
    obtain ⟨hypothesis, -, hplan⟩ := List.exists_of_findSome?_eq_some hfirst
    obtain ⟨choice, hchoice, rfl⟩ := Option.map_eq_some_iff.mp hplan
    exact hselect _ choice hchoice
  rcases Option.or_eq_some_iff.mp h with hspecific | ⟨-, hdeployment⟩
  · refine hselected specificRunbook ?_ hspecific
    intro title choice hchoice
    unfold specificRunbook at hchoice
    split_ifs at hchoice <;> (rw [← Option.some.inj hchoice]; decide)
  · refine hselected deploymentRunbook ?_ hdeployment
    intro title choice hchoice
    unfold deploymentRunbook at hchoice
    split_ifs at hchoice
    rw [← Option.some.inj hchoice]
    decide

section
variable (sha256 key : String → String) (request : RemediationRequest)

/-- The steps that stand before an approval. -/
def waitingSteps : List String := ["evidence", "planned", "awaiting-approval"]

/-- The course has come to the approval of a plan. -/
structure Waiting (course : List (WorkflowLifecycleEvent × WorkflowRecord))
    (plan : RemediationPlanResult) : Prop where
  stage : Stage sha256 key request course waitingSteps
    (some (.waitingApproval, plan.workflowVersion))
  planHash : plan.planHash.all isPlanHash = true

/-- The course has come to a point from which an outcome can be recorded. -/
structure Concluding (course : List (WorkflowLifecycleEvent × WorkflowRecord))
    (plan : RemediationPlanResult) (outcome : ActionOutcome) : Prop where
  stage : ∃ steps status, Stage sha256 key request course steps
      (some (status, outcome.workflowVersion)) ∧ "outcome" ∉ steps ∧
    WorkflowStatus.ofValue outcome.fromStatus = some status ∧
    (terminalStatusForAction outcome).workflowStatus ∈ allowedTransitions (some status)
  planHash : plan.planHash.all isPlanHash = true

/-- What the planner answers, by whether there is something to approve. -/
structure Planning (course : List (WorkflowLifecycleEvent × WorkflowRecord))
    (evidence : EvidenceBundle) (plan : RemediationPlanResult) : Prop where
  unplanned : (decideAfterPlan plan).proceed = false →
    Stage sha256 key request course ["evidence"] (some (.received, evidence.workflowVersion))
  planned : (decideAfterPlan plan).proceed = true → Waiting sha256 key request course plan
  planHash : plan.planHash.all isPlanHash = true

end

section
variable {sha256 key : String → String} {request : RemediationRequest} {environ : String → Option String}
  {analyze : String → List Json → Except ActivityError (List IncidentHypothesis)}
  {base : List (WorkflowLifecycleEvent × WorkflowRecord)} {plan : RemediationPlanResult}

theorem collectEvidence_plays (hrequest : request.validate = none) (hkeys : DistinctKeys key request)
    (ids : List String) (now : UtcTime) :
    ∃ course, Stage sha256 key request course ["evidence"] (some (.received, 1)) ∧
      ∀ evidence, (∀ events, evidence = .ok events → events.map (·.1) = ids) →
        Plays course (fun bundle => bundle.workflowVersion = 1) 0
          (collectEvidence (remediationSetup environ analyze) request evidence now.isoformat) := by
  have hcontinues : Continues none [] (collectedAdvance request ids now.isoformat) :=
    ⟨(by decide : "evidence" ∈ remediationSteps ∧ "evidence" ∉ []),
      (by decide : "collect-remediation-evidence" ∈ remediationActions), rfl, rfl,
      (by decide : .received ∈ allowedTransitions none), rfl, now, rfl⟩
  have hempty : Stage sha256 key request [] [] none := stage_nil
  obtain ⟨r, hversion, hstage⟩ := hempty.snoc hcontinues hrequest hkeys
  refine ⟨_, hstage, ?_⟩
  intro evidence hids
  apply plays_checked
  intro _ _
  apply plays_checked
  intro _ _
  apply plays_checked
  intro events hevents
  rw [requireStepTime_isoformat, hids events hevents]
  apply plays_advance hrequest rfl
  intro result hresult
  exact plays_finish rfl (hresult.trans hversion)

theorem planRemediation_plays (hdigest : ∀ text, HexDigest (sha256 text))
    (hrequest : request.validate = none) (hkeys : DistinctKeys key request) {evidence : EvidenceBundle}
    (h : Stage sha256 key request base ["evidence"] (some (.received, evidence.workflowVersion)))
    (now : UtcTime) :
    ∃ course, base <+: course ∧ (lifecycleRules sha256 key).Course request.workflowId course ∧
      Plays course (Planning sha256 key request course evidence) base.length
        (planRemediation sha256 (remediationSetup environ analyze) request (some evidence)
          now.isoformat) := by
  unfold planRemediation
  simp only [remediationSetup, requireStepTime_isoformat]
  cases hanalysis : (analyze request.service evidence.evidence).map planFromIncident with
  | error x =>
    refine ⟨base, List.prefix_refl base, h.lawful, ?_⟩
    apply plays_checked
    intro _ _
    apply plays_checked
    intro _ _
    exact plays_error x
  | ok choice =>
    cases choice with
    | none =>
      refine ⟨base, List.prefix_refl base, h.lawful, ?_⟩
      apply plays_checked
      intro _ _
      apply plays_checked
      intro _ _
      refine plays_finish rfl ⟨fun _ => h, ?_, rfl⟩
      intro hproceed
      cases hproceed
    | some plan =>
      have hrunbook : plan.runbookId ≠ "" := by
        cases hhypotheses : analyze request.service evidence.evidence with
        | error x =>
          rw [hhypotheses] at hanalysis
          cases hanalysis
        | ok hypotheses =>
          rw [hhypotheses] at hanalysis
          exact runbookId_of_plan (Except.ok.inj hanalysis)
      have hhash : isPlanHash ((workflowPlan request plan).planHash sha256) = true :=
        isPlanHash_of_hexDigest (hdigest _)
      have hplanned : Continues (some (.received, evidence.workflowVersion)) ["evidence"]
          (plannedAdvance sha256 request plan evidence.workflowVersion now.isoformat) :=
        ⟨(by decide : "planned" ∈ remediationSteps ∧ "planned" ∉ ["evidence"]),
          (by decide : "prepare-remediation" ∈ remediationActions), rfl, rfl,
          (by decide : .planned ∈ allowedTransitions (some .received)), hhash, now, rfl⟩
      obtain ⟨r, hversion, hstage⟩ := h.snoc hplanned hrequest hkeys
      have hwaiting : Continues (some (.planned, r.version)) ["evidence", "planned"]
          (waitingAdvance ((workflowPlan request plan).planHash sha256) r.version now.isoformat) :=
        ⟨(by decide : "awaiting-approval" ∈ remediationSteps ∧
            "awaiting-approval" ∉ ["evidence", "planned"]),
          (by decide : "await-human-approval" ∈ remediationActions), rfl, rfl,
          (by decide : .waitingApproval ∈ allowedTransitions (some .planned)), hhash, now, rfl⟩
      rw [← hversion] at hstage
      obtain ⟨r', hversion', hstage'⟩ := hstage.snoc hwaiting hrequest hkeys
      refine ⟨_, ?_, hstage'.lawful, ?_⟩
      · rw [List.append_assoc]
        exact List.prefix_append _ _
      apply plays_checked
      intro _ _
      apply plays_checked
      intro _ _
      have hbase : base.length < (base ++ [((plannedAdvance sha256 request plan
          evidence.workflowVersion now.isoformat).event remediationActor request, r)]).length := by
        simp
      refine plays_advance hrequest (r := r) ?_ ?_
      · rw [List.getElem?_append_left hbase]
        simp
      intro planned hresult
      rw [hresult]
      refine plays_advance hrequest (r := r') ?_ ?_
      · simp
      intro waiting hresult'
      refine plays_finish (by simp) ⟨?_, ?_, ?_⟩
      · intro hstop
        rw [proceed_of_approvable ⟨rfl, ⟨_, rfl, hrunbook⟩, ⟨_, rfl, ne_empty_of_isPlanHash hhash⟩⟩]
          at hstop
        cases hstop
      · intro _
        refine ⟨?_, hhash⟩
        rw [hresult', hversion']
        exact hstage'
      · exact hhash

/-- Every end of the control loop may follow the verification. -/
theorem executed_allowed (status : ExecutionStatus) (outcome : ActionOutcome)
    (h : outcome.status = executionStatusValue status) :
    (terminalStatusForAction outcome).workflowStatus ∈ allowedTransitions (some .verifying) := by
  unfold terminalStatusForAction
  rw [h]
  cases status <;> decide

theorem denied_concluding (h : Waiting sha256 key request base plan) {outcome : ActionOutcome}
    (hstatus : outcome.status = "denied") (hfrom : outcome.fromStatus = "waiting_approval")
    (hversion : outcome.workflowVersion = plan.workflowVersion) :
    Concluding sha256 key request base plan outcome := by
  refine ⟨⟨waitingSteps, .waitingApproval, ?_, by decide, ?_, ?_⟩, h.planHash⟩
  · rw [hversion]
    exact h.stage
  · rw [hfrom]
    decide
  · unfold terminalStatusForAction
    rw [hstatus]
    decide

theorem executeAction_plays (hrequest : request.validate = none) (hkeys : DistinctKeys key request)
    (h : Waiting sha256 key request base plan) (execution : Except ActivityError ExecutionResult)
    (now : UtcTime) :
    ∃ course, base <+: course ∧ (lifecycleRules sha256 key).Course request.workflowId course ∧
      Plays course (Concluding sha256 key request course plan) base.length
        (executeAction (remediationSetup environ analyze) request (some plan) true execution
          now.isoformat) := by
  unfold executeAction
  simp only [Bool.not_true, Bool.false_eq_true, if_false, requireStepTime_isoformat]
  cases hrunbook : plan.runbookId.filter (· ≠ "") with
  | none =>
    refine ⟨base, List.prefix_refl base, h.stage.lawful, ?_⟩
    apply plays_checked
    intro _ _
    exact plays_finish rfl (denied_concluding h rfl rfl rfl)
  | some runbookId =>
    have hexecuting : Continues (some (.waitingApproval, plan.workflowVersion)) waitingSteps
        (executingAdvance request runbookId plan.planHash plan.workflowVersion now.isoformat) :=
      ⟨(by decide : "executing" ∈ remediationSteps ∧ "executing" ∉ waitingSteps),
        (by decide : "execute-remediation" ∈ remediationActions), rfl, rfl,
        (by decide : .executing ∈ allowedTransitions (some .waitingApproval)), h.planHash, now, rfl⟩
    obtain ⟨r, hversion, hstage⟩ := h.stage.snoc hexecuting hrequest hkeys
    have hbase : base.length < (base ++ [((executingAdvance request runbookId plan.planHash
        plan.workflowVersion now.isoformat).event remediationActor request, r)]).length := by
      simp
    cases execution with
    | error x =>
      -- the control loop raises after the first event
      refine ⟨_, List.prefix_append _ _, hstage.lawful, ?_⟩
      apply plays_checked
      intro _ _
      refine plays_advance hrequest (r := r) (by simp) ?_
      intro _ _
      exact plays_error x
    | ok result =>
      rw [← hversion] at hstage
      have hverifying : Continues (some (.executing, r.version)) (waitingSteps ++ ["executing"])
          (verifyingAdvance result plan.planHash r.version now.isoformat) :=
        ⟨(by decide : "verifying" ∈ remediationSteps ∧ "verifying" ∉ waitingSteps ++ ["executing"]),
          (by decide : "verify-remediation" ∈ remediationActions), rfl, rfl,
          (by decide : .verifying ∈ allowedTransitions (some .executing)), h.planHash, now, rfl⟩
      obtain ⟨r', hversion', hstage'⟩ := hstage.snoc hverifying hrequest hkeys
      refine ⟨_, ?_, hstage'.lawful, ?_⟩
      · rw [List.append_assoc]
        exact List.prefix_append _ _
      apply plays_checked
      intro _ _
      refine plays_advance hrequest (r := r) ?_ ?_
      · rw [List.getElem?_append_left hbase]
        simp
      intro executing hresult
      rw [hresult]
      refine plays_advance hrequest (r := r') (by simp) ?_
      intro verifying hresult'
      refine plays_finish (by simp) ⟨⟨waitingSteps ++ ["executing"] ++ ["verifying"], .verifying, ?_, ?_,
        rfl, ?_⟩, h.planHash⟩
      · rw [hresult', hversion']
        exact hstage'
      · exact (by decide : "outcome" ∉ waitingSteps ++ ["executing"] ++ ["verifying"])
      · exact executed_allowed result.status _ rfl

theorem recordOutcome_plays (hrequest : request.validate = none) (hkeys : DistinctKeys key request)
    {outcome : ActionOutcome} (h : Concluding sha256 key request base plan outcome) (approver : String)
    (now : UtcTime) :
    ∃ course, base <+: course ∧ (lifecycleRules sha256 key).Course request.workflowId course ∧
      Plays course (fun _ => True) base.length
        (recordOutcome (remediationSetup environ analyze) request (some plan) outcome approver
          now.isoformat) := by
  obtain ⟨steps, status, hstage, hunused, hstatus, hallowed⟩ := h.stage
  have hcontinues : Continues (some (status, outcome.workflowVersion)) steps
      (outcomeAdvance status (some plan) outcome approver now.isoformat) :=
    ⟨⟨(by decide : "outcome" ∈ remediationSteps), hunused⟩,
      (by decide : "finish-remediation" ∈ remediationActions), rfl, rfl, hallowed, h.planHash, now, rfl⟩
  obtain ⟨r, -, hstage'⟩ := hstage.snoc hcontinues hrequest hkeys
  refine ⟨_, List.prefix_append _ _, hstage'.lawful, ?_⟩
  unfold recordOutcome workflowStatusOf
  rw [hstatus, requireStepTime_isoformat]
  apply plays_checked
  intro _ _
  refine plays_advance hrequest (r := r) (by simp) ?_
  intro _ _
  exact plays_finish (by simp) trivial

end

end EngineeringIntelligence.Orchestration
