import EngineeringIntelligence.Framework.Run
import EngineeringIntelligence.PrGuardian.StickyComment

namespace EngineeringIntelligence.PrGuardian

open EngineeringIntelligence.Framework

/-! One pull request while an account publishes under one marker and others comment. -/

/-- A call between its listing and its write. -/
structure StickyCall where
  body : String
  write : StickyWrite
  deriving DecidableEq, Repr

structure Conversation where
  /-- oldest first -/
  comments : List IssueComment
  nextId : Nat
  calls : List StickyCall
  /-- the body of the last call that has written -/
  published : Option String
  deriving DecidableEq, Repr

def Conversation.empty : Conversation := ⟨[], 1, [], none⟩

section
variable (actor : Actor) (marker : String)

inductive ConversationMove where
  /-- somebody else comments, also with the marker in the text -/
  | comment (login : Option String) (other : login ≠ some actor.login) (body : String)
  /-- a call of `publish_sticky_comment` begins: it lists the comments -/
  | list (body : String)
  /-- the write of a call in flight -/
  | write (index : Nat)
  /-- a call in flight ends without its write -/
  | drop (index : Nat)

/-- What GitHub does for the write of a call. -/
def Conversation.perform (s : Conversation) (call : StickyCall) : Conversation :=
  match call.write with
  | .patch id body => { s with
      comments := s.comments.map fun c => if c.id = id then { c with body := body } else c
      published := some call.body }
  | .post body => { s with
      comments := s.comments ++ [⟨s.nextId, some actor.login, body⟩]
      nextId := s.nextId + 1
      published := some call.body }

def conversationStep (s : Conversation) : ConversationMove actor → Conversation × Unit
  | .comment login _ body =>
    ({ s with comments := s.comments ++ [⟨s.nextId, login, body⟩], nextId := s.nextId + 1 }, ())
  | .list body =>
    match publishStickyComment actor.answer marker body s.comments with
    | .ok write => ({ s with calls := s.calls ++ [⟨body, write⟩] }, ())
    | .error _ => (s, ())
  | .write index =>
    match s.calls[index]? with
    | some call => ({ s with calls := s.calls.eraseIdx index }.perform actor call, ())
    | none => (s, ())
  | .drop index => ({ s with calls := s.calls.eraseIdx index }, ())

/-- The comments of the actor that carry the marker. -/
def Conversation.own (s : Conversation) : List IssueComment :=
  s.comments.filter (IssueComment.isOwn actor.login marker)

/-- Once something is published there is one comment, it shows the last publish, and it is found again. -/
def Sticky (s : Conversation) : Prop :=
  ∀ body, s.published = some body →
    (∃ c, s.own actor marker = [c] ∧ c.body = markedBody marker body) ∧
      latestCommentWithMarker actor.answer marker s.comments = .ok (some (markedBody marker body))

/-- A call that posts a new comment finds no comment of its own there, and the first page not full. -/
def PostsInTime (s : Conversation) : ConversationMove actor → Prop
  | .write index => ∀ call body, s.calls[index]? = some call → call.write = .post body →
      s.own actor marker = [] ∧ s.comments.length < pageSize
  | _ => True

/-- What holds while the condition is met. -/
structure StickyInvariant (s : Conversation) : Prop where
  fresh : ∀ c ∈ s.comments, c.id < s.nextId
  ids : (s.comments.map (·.id)).Nodup
  marked : ∀ call ∈ s.calls, isStickyMarker marker = true ∧
    match call.write with
    | .patch id body => body = markedBody marker call.body ∧ ∃ c ∈ s.own actor marker, c.id = id
    | .post body => body = markedBody marker call.body
  silent : s.published = none → s.own actor marker = []
  found : ∀ body, s.published = some body → isStickyMarker marker = true ∧
    ∃ c, s.own actor marker = [c] ∧ c ∈ s.comments.take pageSize ∧ c.body = markedBody marker body

variable {actor marker}

theorem isOwn_other {c : IssueComment} (h : c.login ≠ some actor.login) :
    c.isOwn actor.login marker = false := by
  have hlogin : c.login.getD "" ≠ actor.login := by
    cases hc : c.login with
    | none => exact (authenticatedLogin_ne actor.resolved).symm
    | some login =>
      intro heq
      exact h (by rw [hc, ← heq]; rfl)
  simp [IssueComment.isOwn, hlogin]

theorem isOwn_posted (id : Nat) (body : String) :
    IssueComment.isOwn actor.login marker ⟨id, some actor.login, markedBody marker body⟩ = true := by
  simp [IssueComment.isOwn, hasInfix_markedBody]

theorem latest_eq (comments : List IssueComment) (hmarker : isStickyMarker marker = true) :
    latestCommentWithMarker actor.answer marker comments =
      .ok ((latestOwn actor.login marker comments).map (·.body)) := by
  rw [latestCommentWithMarker, if_pos hmarker, actor.resolved]
  rfl

theorem find?_of_only {α : Type*} {p : α → Bool} {l : List α} {x : α} (hx : x ∈ l) (hp : p x = true)
    (honly : ∀ y ∈ l, p y = true → y = x) : l.find? p = some x := by
  cases hfind : l.find? p with
  | none => exact absurd hp (List.find?_eq_none.mp hfind x hx)
  | some y => rw [honly y (List.mem_of_find?_eq_some hfind) (List.find?_some hfind)]

/-- The one comment is found where it is on the page. -/
theorem latestOwn_of_page {comments : List IssueComment} {c : IssueComment}
    (hown : comments.filter (IssueComment.isOwn actor.login marker) = [c]) (hpage : c ∈ comments.take pageSize) :
    latestOwn actor.login marker comments = some c := by
  have honly (d : IssueComment) (hd : d ∈ comments) (hdown : d.isOwn actor.login marker = true) : d = c := by
    have hmem := List.mem_filter.mpr ⟨hd, hdown⟩
    rw [hown] at hmem
    exact List.mem_singleton.mp hmem
  have hc : c.isOwn actor.login marker = true := by
    have hmem : c ∈ comments.filter (IssueComment.isOwn actor.login marker) := by rw [hown]; exact List.mem_cons_self
    exact (List.mem_filter.mp hmem).2
  apply find?_of_only (List.mem_reverse.mpr hpage) hc
  intro d hd hdown
  exact honly d (List.mem_of_mem_take (List.mem_reverse.mp hd)) hdown

/-- What is found is on the page and the actor's. -/
theorem mem_of_latestOwn {comments : List IssueComment} {c : IssueComment}
    (h : latestOwn actor.login marker comments = some c) :
    c ∈ comments.take pageSize ∧ c ∈ comments.filter (IssueComment.isOwn actor.login marker) := by
  have hpage := List.mem_reverse.mp (List.mem_of_find?_eq_some h)
  exact ⟨hpage, List.mem_filter.mpr ⟨List.mem_of_mem_take hpage, List.find?_some h⟩⟩

theorem StickyInvariant.sticky {s : Conversation} (h : StickyInvariant actor marker s) : Sticky actor marker s := by
  intro body hbody
  obtain ⟨hmarker, c, hown, hpage, hc⟩ := h.found body hbody
  refine ⟨⟨c, hown, hc⟩, ?_⟩
  rw [latest_eq s.comments hmarker, latestOwn_of_page hown hpage, ← hc]
  rfl

theorem stickyInvariant_empty : StickyInvariant actor marker .empty where
  fresh := by simp [Conversation.empty]
  ids := by simp [Conversation.empty]
  marked := by simp [Conversation.empty]
  silent := fun _ => rfl
  found := by simp [Conversation.empty]

/-- A comment that takes the next id keeps the ids apart. -/
theorem StickyInvariant.appended {s : Conversation} (h : StickyInvariant actor marker s) (login : Option String)
    (body : String) :
    (∀ c ∈ s.comments ++ [IssueComment.mk s.nextId login body], c.id < s.nextId + 1) ∧
      ((s.comments ++ [IssueComment.mk s.nextId login body]).map (·.id)).Nodup := by
  constructor
  · intro c hc
    rcases List.mem_append.mp hc with hc | hc
    · exact Nat.lt_succ_of_lt (h.fresh c hc)
    · rw [List.mem_singleton.mp hc]
      exact Nat.lt_succ_self _
  · rw [List.map_append, List.nodup_append]
    refine ⟨h.ids, List.nodup_singleton _, ?_⟩
    intro id hid id' hid' heq
    obtain ⟨c, hc, rfl⟩ := List.mem_map.mp hid
    have hlt := h.fresh c hc
    rw [heq, List.mem_singleton.mp hid'] at hlt
    exact absurd hlt (Nat.lt_irrefl _)

theorem StickyInvariant.commented {s : Conversation} (h : StickyInvariant actor marker s)
    {login : Option String} (other : login ≠ some actor.login) (body : String) :
    StickyInvariant actor marker
      { s with comments := s.comments ++ [⟨s.nextId, login, body⟩], nextId := s.nextId + 1 } := by
  have hother : IssueComment.isOwn actor.login marker ⟨s.nextId, login, body⟩ = false := isOwn_other other
  have hown : Conversation.own actor marker
      { s with comments := s.comments ++ [⟨s.nextId, login, body⟩], nextId := s.nextId + 1 } = s.own actor marker := by
    simp [Conversation.own, List.filter_append, hother]
  obtain ⟨hfresh, hids⟩ := h.appended login body
  refine ⟨hfresh, hids, ?_, ?_, ?_⟩
  · rw [hown]
    exact h.marked
  · rw [hown]
    exact h.silent
  · intro published hpublished
    obtain ⟨hmarker, c, hc, hpage, hbody⟩ := h.found published hpublished
    refine ⟨hmarker, c, hown.trans hc, ?_, hbody⟩
    rw [List.take_append]
    exact List.mem_append_left _ hpage

theorem StickyInvariant.fewer {s : Conversation} (h : StickyInvariant actor marker s) {calls : List StickyCall}
    (hcalls : calls ⊆ s.calls) : StickyInvariant actor marker { s with calls := calls } where
  fresh := h.fresh
  ids := h.ids
  marked := fun call hcall => h.marked call (hcalls hcall)
  silent := h.silent
  found := h.found

/-- What the listing of a call leads to. -/
theorem publishStickyComment_eq_ok_iff {body : String} {comments : List IssueComment} {write : StickyWrite} :
    publishStickyComment actor.answer marker body comments = .ok write ↔
      isStickyMarker marker = true ∧
        write = match latestOwn actor.login marker comments with
          | some comment => .patch comment.id (markedBody marker body)
          | none => .post (markedBody marker body) := by
  unfold publishStickyComment
  by_cases hmarker : isStickyMarker marker
  · rw [if_pos hmarker, actor.resolved, ok_bind]
    cases latestOwn actor.login marker comments with
    | none => simp [hmarker, eq_comm]
    | some c => simp [hmarker, eq_comm]
  · simp [hmarker]

theorem StickyInvariant.listed {s : Conversation} (h : StickyInvariant actor marker s) {body : String}
    {write : StickyWrite} (hwrite : publishStickyComment actor.answer marker body s.comments = .ok write) :
    StickyInvariant actor marker { s with calls := s.calls ++ [⟨body, write⟩] } where
  fresh := h.fresh
  ids := h.ids
  silent := h.silent
  found := h.found
  marked := by
    intro call hcall
    rcases List.mem_append.mp hcall with hcall | hcall
    · exact h.marked call hcall
    · rw [List.mem_singleton.mp hcall]
      obtain ⟨hmarker, rfl⟩ := publishStickyComment_eq_ok_iff.mp hwrite
      refine ⟨hmarker, ?_⟩
      cases hlatest : latestOwn actor.login marker s.comments with
      | none => rfl
      | some c => exact ⟨rfl, c, (mem_of_latestOwn hlatest).2, rfl⟩

/-- A patch of the actor's comment leaves whose comments they are as it was. -/
theorem own_patched {s : Conversation} (h : StickyInvariant actor marker s) {id : Nat} (body : String)
    (hid : ∃ c ∈ s.own actor marker, c.id = id) :
    (s.comments.map fun c => if c.id = id then { c with body := markedBody marker body } else c).filter
        (IssueComment.isOwn actor.login marker) =
      (s.own actor marker).map fun c => if c.id = id then { c with body := markedBody marker body } else c := by
  rw [List.filter_map, Conversation.own]
  refine congrArg (List.map _) (List.filter_congr fun d hd => ?_)
  obtain ⟨c, hc, rfl⟩ := hid
  obtain ⟨hcmem, hcown⟩ := List.mem_filter.mp hc
  by_cases hsame : d.id = c.id
  · have heq : d = c := List.inj_on_of_nodup_map h.ids hd hcmem hsame
    have hlogin : c.login.getD "" = actor.login := by
      simp only [IssueComment.isOwn, Bool.and_eq_true, decide_eq_true_eq] at hcown
      exact hcown.2
    rw [heq, hcown]
    simp [IssueComment.isOwn, hasInfix_markedBody, hlogin]
  · simp [hsame]

theorem StickyInvariant.patched {s : Conversation} (h : StickyInvariant actor marker s) {id : Nat} {body : String}
    (hmarker : isStickyMarker marker = true) (hid : ∃ c ∈ s.own actor marker, c.id = id) :
    StickyInvariant actor marker { s with
      comments := s.comments.map fun c => if c.id = id then { c with body := markedBody marker body } else c
      published := some body } := by
  have hown := own_patched h body hid
  have hkeeps (c : IssueComment) :
      (if c.id = id then { c with body := markedBody marker body } else c).id = c.id := by
    split <;> rfl
  constructor
  · intro c hc
    obtain ⟨d, hd, rfl⟩ := List.mem_map.mp hc
    rw [hkeeps]
    exact h.fresh d hd
  · rw [List.map_map]
    have hsame : ((fun c : IssueComment => c.id) ∘ fun c =>
        if c.id = id then { c with body := markedBody marker body } else c) = (·.id) := funext hkeeps
    rw [hsame]
    exact h.ids
  · intro call hcall
    obtain ⟨-, hwrite⟩ := h.marked call hcall
    refine ⟨hmarker, ?_⟩
    cases hcase : call.write with
    | post b =>
      rw [hcase] at hwrite
      exact hwrite
    | patch target b =>
      rw [hcase] at hwrite
      obtain ⟨hb, c, hc, htarget⟩ := hwrite
      refine ⟨hb, _, ?_, (hkeeps c).trans htarget⟩
      rw [Conversation.own, hown]
      exact List.mem_map_of_mem hc
  · intro hnone
    cases hnone
  · intro published hpublished
    cases hpublished
    refine ⟨hmarker, ?_⟩
    -- the patched comment is the one the invariant knows
    cases hbefore : s.published with
    | none =>
      obtain ⟨c, hc, -⟩ := hid
      rw [h.silent hbefore] at hc
      cases hc
    | some last =>
      obtain ⟨-, c, hc, hpage, -⟩ := h.found last hbefore
      have hcid : c.id = id := by
        obtain ⟨d, hd, hdid⟩ := hid
        rw [hc] at hd
        rwa [List.mem_singleton.mp hd] at hdid
      refine ⟨{ c with body := markedBody marker body }, ?_, ?_, rfl⟩
      · rw [Conversation.own, hown, hc, List.map_singleton, if_pos hcid]
      · rw [← List.map_take]
        refine List.mem_map.mpr ⟨c, hpage, ?_⟩
        rw [if_pos hcid]

theorem own_posted (s : Conversation) (body : String) :
    List.filter (IssueComment.isOwn actor.login marker)
        (s.comments ++ [⟨s.nextId, some actor.login, markedBody marker body⟩]) =
      s.own actor marker ++ [⟨s.nextId, some actor.login, markedBody marker body⟩] := by
  rw [List.filter_append, Conversation.own, List.filter_singleton, isOwn_posted]
  rfl

theorem StickyInvariant.posted {s : Conversation} (h : StickyInvariant actor marker s) {body : String}
    (hmarker : isStickyMarker marker = true) (hnone : s.own actor marker = [])
    (hspace : s.comments.length < pageSize) :
    StickyInvariant actor marker { s with
      comments := s.comments ++ [⟨s.nextId, some actor.login, markedBody marker body⟩]
      nextId := s.nextId + 1
      published := some body } := by
  obtain ⟨hfresh, hids⟩ := h.appended (some actor.login) (markedBody marker body)
  refine ⟨hfresh, hids, ?_, ?_, ?_⟩
  · intro call hcall
    obtain ⟨-, hwrite⟩ := h.marked call hcall
    refine ⟨hmarker, ?_⟩
    cases hcase : call.write with
    | post b =>
      rw [hcase] at hwrite
      exact hwrite
    | patch target b =>
      rw [hcase, hnone] at hwrite
      obtain ⟨-, c, hc, -⟩ := hwrite
      cases hc
  · intro hpublished
    cases hpublished
  · intro published hpublished
    cases hpublished
    refine ⟨hmarker, ⟨s.nextId, some actor.login, markedBody marker body⟩, ?_, ?_, rfl⟩
    · rw [Conversation.own, own_posted, hnone, List.nil_append]
    · rw [List.take_append, List.take_of_length_le (l := [_]) (by simp; omega)]
      exact List.mem_append_right _ List.mem_cons_self

/-- The write of a call that meets the condition. -/
theorem StickyInvariant.performed {s : Conversation} (h : StickyInvariant actor marker s) {index : Nat}
    {call : StickyCall} (hcall : s.calls[index]? = some call)
    (hok : PostsInTime actor marker s (.write index)) :
    StickyInvariant actor marker ({ s with calls := s.calls.eraseIdx index }.perform actor call) := by
  have hrest := h.fewer (List.eraseIdx_subset : s.calls.eraseIdx index ⊆ s.calls)
  obtain ⟨hmarker, hwrite⟩ := h.marked call (List.mem_of_getElem? hcall)
  unfold Conversation.perform
  cases hcase : call.write with
  | patch id body =>
    rw [hcase] at hwrite
    obtain ⟨rfl, hid⟩ := hwrite
    exact hrest.patched hmarker hid
  | post body =>
    rw [hcase] at hwrite
    obtain ⟨hnone, hspace⟩ := hok call body hcall hcase
    obtain rfl := hwrite
    exact hrest.posted hmarker hnone hspace

theorem stickyInvariant_step (s : Conversation) (move : ConversationMove actor)
    (h : StickyInvariant actor marker s) (hok : PostsInTime actor marker s move) :
    StickyInvariant actor marker (conversationStep actor marker s move).1 := by
  cases move with
  | comment login other body => exact h.commented other body
  | list body =>
    cases hwrite : publishStickyComment actor.answer marker body s.comments with
    | error e => simpa only [conversationStep, hwrite] using h
    | ok write => simpa only [conversationStep, hwrite] using h.listed hwrite
  | write index =>
    cases hcall : s.calls[index]? with
    | none => simpa only [conversationStep, hcall] using h
    | some call => simpa only [conversationStep, hcall] using h.performed hcall hok
  | drop index => exact h.fewer List.eraseIdx_subset

/-- A post beside another comment of the actor, or beyond the page, is seen at once. -/
theorem postsInTime_of_sticky (s : Conversation) (move : ConversationMove actor)
    (h : StickyInvariant actor marker s) (hnext : Sticky actor marker (conversationStep actor marker s move).1) :
    PostsInTime actor marker s move := by
  cases move with
  | comment login other body => trivial
  | list body => trivial
  | drop index => trivial
  | write index =>
    intro call body hcall hpost
    obtain ⟨hmarker, hwrite⟩ := h.marked call (List.mem_of_getElem? hcall)
    rw [hpost] at hwrite
    have hbody : body = markedBody marker call.body := hwrite
    have hafter : (conversationStep actor marker s (.write index)).1 =
        { s with
          calls := s.calls.eraseIdx index
          comments := s.comments ++ [⟨s.nextId, some actor.login, markedBody marker call.body⟩]
          nextId := s.nextId + 1
          published := some call.body } := by
      simp only [conversationStep, hcall, Conversation.perform, hpost, hbody]
    rw [hafter] at hnext
    obtain ⟨⟨c, hown, -⟩, hlatest⟩ := hnext call.body rfl
    rw [Conversation.own, own_posted] at hown
    have hnone : s.own actor marker = [] := by
      have hlength := congrArg List.length hown
      rw [List.length_append, List.length_singleton, List.length_singleton] at hlength
      exact List.eq_nil_of_length_eq_zero (by omega)
    refine ⟨hnone, ?_⟩
    by_contra hfull
    rw [latest_eq _ hmarker, latestOwn, List.take_append_of_le_length (Nat.le_of_not_lt hfull)] at hlatest
    cases hfind : latestOwn actor.login marker s.comments with
    | none =>
      rw [latestOwn] at hfind
      rw [hfind] at hlatest
      cases hlatest
    | some d =>
      have hd := (mem_of_latestOwn hfind).2
      rw [← Conversation.own, hnone] at hd
      cases hd

/-- In the runs in which every post comes in time, and in no others, the sticky comment is one all along. -/
theorem sticky_comment_iff (actor : Actor) (marker : String) (moves : List (ConversationMove actor)) :
    Admissible (conversationStep actor marker) (PostsInTime actor marker) .empty moves ↔
      ∀ before, before <+: moves →
        Sticky actor marker (runState (conversationStep actor marker) .empty before) :=
  admissible_iff_reached (conversationStep actor marker) stickyInvariant_step (fun _ h => h.sticky)
    postsInTime_of_sticky stickyInvariant_empty moves

end

namespace CrowdedPullRequest

/-- The Actions bot; `GET /user` is refused. -/
def bot : Actor := ⟨.error 403, "github-actions[bot]", rfl⟩

def marker : String := "<!-- eip-pr-guardian -->"

/-- A hundred comments of a reviewer, then two publishes. -/
def moves : List (ConversationMove bot) :=
  List.replicate 100 (.comment (some "ana") (by decide) "ok") ++
    [.list "risk 22", .write 0, .list "risk 80", .write 0]

end CrowdedPullRequest

open CrowdedPullRequest in
/-- The second publish does not find the first, nor does the lookup find either. -/
theorem crowded_pull_request_repeats :
    ¬ Sticky bot marker (runState (conversationStep bot marker) .empty moves) := by
  obtain ⟨hpublished, htwo⟩ : (runState (conversationStep bot marker) .empty moves).published = some "risk 80" ∧
      ((runState (conversationStep bot marker) .empty moves).own bot marker).length = 2 := by
    decide +kernel
  intro h
  obtain ⟨⟨c, hown, -⟩, -⟩ := h _ hpublished
  rw [hown, List.length_singleton] at htwo
  cases htwo

end EngineeringIntelligence.PrGuardian
