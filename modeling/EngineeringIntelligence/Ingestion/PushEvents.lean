import EngineeringIntelligence.Framework.Sorted
import EngineeringIntelligence.Ingestion.Pipeline

namespace EngineeringIntelligence.Ingestion

open EngineeringIntelligence.Framework

/-! `github_push_event` and `azure_devops_push_event`: what a push is turned into, and when two
pushes stay apart. -/

/-- A commit of a GitHub push; a list that is not given is empty. -/
structure GitHubCommit where
  added : List String
  modified : List String
  removed : List String
  deriving DecidableEq

/-- A GitHub push; `none` stands for a key that is absent. -/
structure GitHubPush where
  fullName : String
  ref : Option String
  after : Option String
  deliveryId : Option String
  commits : List GitHubCommit
  deriving DecidableEq

/-- An entry of `changes`, with `item.path`. -/
structure DevOpsChange where
  path : String
  changeType : Option String
  deriving DecidableEq

structure DevOpsCommit where
  commitId : Option String
  changes : List DevOpsChange
  deriving DecidableEq

/-- An Azure DevOps push, with the names of its project and of its ref updates. -/
structure DevOpsPush where
  id : Option String
  name : String
  project : Option String
  refUpdates : Option (List (Option String))
  commits : Option (List DevOpsCommit)
  deriving DecidableEq

/-- `value or default`. -/
def orElse (value : Option String) (default : String) : String :=
  match value with
  | some s => if s = "" then default else s
  | none => default

/-- `ref.rsplit("/", 1)[-1]`. -/
def branchOf (ref : String) : String :=
  String.ofList (ref.toList.reverse.takeWhile (· ≠ '/')).reverse

/-- `path.lstrip("/")`. -/
def withoutSlashes (path : String) : String := String.ofList (path.toList.dropWhile (· = '/'))

section
variable (lower : String → String) (fileLoader : String → String → String → Option String)

/-- `path.rsplit(".", 1)[-1].lower() if "." in path else None`; `lower` is `str.lower`. -/
def languageOf (path : String) : Option String :=
  if '.' ∈ path.toList then
    some (lower (String.ofList (path.toList.reverse.takeWhile (· ≠ '.')).reverse))
  else none

/-- The change of one path: a file that is there is loaded as of the head commit. -/
def pushedChange (provider repository branch commit path : String) (changeType : ChangeType) : FileChange where
  source := ⟨provider, repository, branch, commit, path⟩
  changeType := changeType
  content := if changeType = .delete then none else fileLoader repository commit path
  language := languageOf lower path
  owner := none
  service := none
  acl := ⟨["repo:" ++ repository ++ ":read"], []⟩

/-! ### GitHub -/

namespace GitHubPush

variable (push : GitHubPush)

def effectiveRef : String := push.ref.getD "refs/heads/main"

def commit : String := orElse push.after "unknown"

/-- One commit: what is added or modified is there, what is removed is not. -/
def record (changed : Table (Prod.fst : String × ChangeType → String)) (c : GitHubCommit) :
    Table (Prod.fst : String × ChangeType → String) :=
  c.removed.foldl (fun t path => t.put (path, .delete))
    ((c.added ++ c.modified).foldl (fun t path => t.put (path, .upsert)) changed)

/-- `changed`. -/
def changed : Table (Prod.fst : String × ChangeType → String) := push.commits.foldl record Table.empty

end GitHubPush

def githubPushEvent (push : GitHubPush) : NormalizedEvent where
  eventId := orElse push.deliveryId ("github:" ++ push.fullName ++ ":" ++ push.commit)
  changes := (sortedBy Prod.fst push.changed.rows).map fun (path, changeType) =>
    pushedChange lower fileLoader "github" push.fullName (branchOf push.effectiveRef) push.commit path
      changeType

/-! ### Azure DevOps -/

namespace DevOpsPush

variable (push : DevOpsPush)

def repoId : String := push.project.getD "default" ++ "/" ++ push.name

/-- The name of the first ref update; `none` is the `IndexError` of an empty list. -/
def effectiveRef : Option String :=
  match push.refUpdates with
  | none => some "refs/heads/main"
  | some updates => updates.head?.map fun name => name.getD "refs/heads/main"

/-- The id of the last commit; `none` is the `IndexError` of an empty list. -/
def commit : Option String :=
  match push.commits with
  | none => some "unknown"
  | some commits => commits.getLast?.map fun c => c.commitId.getD "unknown"

end DevOpsPush

def DevOpsChange.target (c : DevOpsChange) : String := withoutSlashes c.path

def DevOpsChange.kind (c : DevOpsChange) : ChangeType :=
  if hasInfix (lower (c.changeType.getD "edit")) "delete" then .delete else .upsert

/-- `none` is an `IndexError`. -/
def azureDevopsPushEvent (push : DevOpsPush) : Option NormalizedEvent := do
  let ref ← push.effectiveRef
  let commit ← push.commit
  some {
    eventId := orElse push.id ("ado:" ++ push.repoId ++ ":" ++ commit)
    changes := (push.commits.getD []).flatMap fun c => c.changes.map fun change =>
      pushedChange lower fileLoader "azure-devops" push.repoId (branchOf ref) commit change.target
        (change.kind lower) }

/-! ### What the operations come to -/

/-- What a list of changes does to a path: the last change of it counts. -/
def netEffect (changes : List FileChange) (path : String) : Option ChangeType :=
  ((changes.filter fun c => c.source.path = path).getLast?).map (·.changeType)

/-- What a path is after a commit, given what it was before: a path the commit does not name is
left alone. -/
def GitHubCommit.effect (c : GitHubCommit) (path : String) (before : Option ChangeType) : Option ChangeType :=
  if path ∈ c.removed then some .delete
  else if path ∈ c.added ∨ path ∈ c.modified then some .upsert
  else before

def GitHubPush.effect (push : GitHubPush) (path : String) : Option ChangeType :=
  push.commits.foldl (fun before c => c.effect path before) none

def DevOpsCommit.effect (c : DevOpsCommit) (path : String) (before : Option ChangeType) : Option ChangeType :=
  c.changes.foldl (fun before change => if change.target = path then some (change.kind lower) else before) before

def DevOpsPush.effect (push : DevOpsPush) (path : String) : Option ChangeType :=
  (push.commits.getD []).foldl (fun before c => c.effect lower path before) none

/-! ### The fold over the commits -/

section
variable {κ : Type} {t : Table (Prod.fst : String × κ → String)}

theorem get_puts (paths : List String) (kind : κ) (path : String) :
    (paths.foldl (fun t p => t.put (p, kind)) t).get path =
      if path ∈ paths then some (path, kind) else t.get path := by
  induction paths generalizing t with
  | nil => simp
  | cons p paths ih =>
    rw [List.foldl_cons, ih, Table.get_put]
    by_cases hmem : path ∈ paths
    · simp [hmem]
    · by_cases hp : path = p
      · simp [hp]
      · simp [hmem, hp]

end

theorem GitHubPush.get_record (changed : Table (Prod.fst : String × ChangeType → String)) (c : GitHubCommit)
    (path : String) :
    ((record changed c).get path).map Prod.snd = c.effect path ((changed.get path).map Prod.snd) := by
  rw [record, get_puts, get_puts, GitHubCommit.effect]
  simp only [List.mem_append]
  split_ifs <;> rfl

theorem GitHubPush.get_changed (push : GitHubPush) (path : String) :
    (push.changed.get path).map Prod.snd = push.effect path := by
  have hfold : ∀ (commits : List GitHubCommit) (t : Table (Prod.fst : String × ChangeType → String)),
      ((commits.foldl record t).get path).map Prod.snd =
        commits.foldl (fun before c => c.effect path before) ((t.get path).map Prod.snd) := by
    intro commits
    induction commits with
    | nil => intro t; rfl
    | cons c commits ih =>
      intro t
      rw [List.foldl_cons, List.foldl_cons, ih, get_record]
  exact hfold push.commits Table.empty

/-- Changes of distinct paths: each path has the effect of the one change that names it. -/
theorem netEffect_of_nodup {changes : List FileChange} (h : (changes.map (·.source.path)).Nodup)
    {path : String} {kind : ChangeType} :
    netEffect changes path = some kind ↔ ∃ c ∈ changes, c.source.path = path ∧ c.changeType = kind := by
  constructor
  · intro heffect
    obtain ⟨c, hlast, rfl⟩ := Option.map_eq_some_iff.mp heffect
    obtain ⟨hmem, hpath⟩ := List.mem_filter.mp (List.mem_of_getLast? hlast)
    exact ⟨c, hmem, of_decide_eq_true hpath, rfl⟩
  · rintro ⟨c, hmem, rfl, rfl⟩
    have hfilter : ∀ d ∈ changes.filter fun d => d.source.path = c.source.path, d = c := by
      intro d hd
      obtain ⟨hdmem, hpath⟩ := List.mem_filter.mp hd
      exact List.inj_on_of_nodup_map h hdmem hmem (of_decide_eq_true hpath)
    cases hlast : (changes.filter fun d => d.source.path = c.source.path).getLast? with
    | none =>
      have hin : c ∈ changes.filter fun d => d.source.path = c.source.path :=
        List.mem_filter.mpr ⟨hmem, by simp⟩
      rw [List.getLast?_eq_none_iff.mp hlast] at hin
      simp at hin
    | some d =>
      rw [netEffect, hlast, hfilter d (List.mem_of_getLast? hlast)]
      rfl

theorem githubPushEvent_paths (push : GitHubPush) :
    ((githubPushEvent lower fileLoader push).changes.map (·.source.path)).Nodup := by
  have hpaths : (githubPushEvent lower fileLoader push).changes.map (·.source.path) =
      (sortedBy Prod.fst push.changed.rows).map Prod.fst := by
    rw [githubPushEvent, List.map_map]
    rfl
  rw [hpaths]
  exact ((perm_sortedBy Prod.fst push.changed.rows).map Prod.fst).nodup_iff.mpr push.changed.unique

/-- A GitHub push comes to what its commits, one after the other, come to. -/
theorem githubPushEvent_netEffect (push : GitHubPush) (path : String) :
    netEffect (githubPushEvent lower fileLoader push).changes path = push.effect path := by
  apply Option.ext
  intro kind
  rw [netEffect_of_nodup (githubPushEvent_paths lower fileLoader push), ← push.get_changed]
  simp only [githubPushEvent, List.mem_map, mem_sortedBy, Option.map_eq_some_iff]
  constructor
  · rintro ⟨c, ⟨row, hrow, rfl⟩, rfl, rfl⟩
    exact ⟨row, Table.get_of_mem hrow, rfl⟩
  · rintro ⟨row, hget, rfl⟩
    exact ⟨_, ⟨row, Table.mem_of_get hget, rfl⟩, (show row.1 = path from Table.key_of_get hget), rfl⟩

/-- The last of the operations that a test selects. -/
theorem foldl_last {α β : Type} (f : α → β) (p : α → Prop) [DecidablePred p] (xs : List α)
    (before : Option β) : xs.foldl (fun s x => if p x then some (f x) else s) before =
      match (xs.filter fun x => p x).getLast? with
      | some x => some (f x)
      | none => before := by
  induction xs generalizing before with
  | nil => rfl
  | cons x xs ih =>
    rw [List.foldl_cons, ih]
    by_cases hx : p x
    · rw [List.filter_cons_of_pos (by simpa using hx), if_pos hx]
      cases hrest : xs.filter fun x => p x with
      | nil => rfl
      | cons y ys => simp [List.getLast?_cons_cons, List.getLast?_eq_some_getLast (List.cons_ne_nil y ys)]
    · rw [List.filter_cons_of_neg (by simpa using hx), if_neg hx]

/-- An Azure DevOps push comes to what its operations, one after the other, come to. -/
theorem azureDevopsPushEvent_netEffect {push : DevOpsPush} {e : NormalizedEvent}
    (h : azureDevopsPushEvent lower fileLoader push = some e) (path : String) :
    netEffect e.changes path = push.effect lower path := by
  obtain ⟨ref, -, h⟩ := Option.bind_eq_some_iff.mp h
  obtain ⟨commit, -, h⟩ := Option.bind_eq_some_iff.mp h
  obtain rfl := Option.some.inj h
  have heffect : push.effect lower path =
      ((push.commits.getD []).flatMap (·.changes)).foldl
        (fun before change => if change.target = path then some (change.kind lower) else before) none := by
    rw [List.foldl_flatMap]
    rfl
  have hchanges : ((push.commits.getD []).flatMap fun c => c.changes.map fun change =>
      pushedChange lower fileLoader "azure-devops" push.repoId (branchOf ref) commit change.target
        (change.kind lower)) = ((push.commits.getD []).flatMap (·.changes)).map fun change =>
      pushedChange lower fileLoader "azure-devops" push.repoId (branchOf ref) commit change.target
        (change.kind lower) := (List.map_flatMap ..).symm
  have hlast := foldl_last (fun change : DevOpsChange => change.kind lower)
    (fun change => change.target = path) ((push.commits.getD []).flatMap (·.changes)) none
  rw [heffect, hlast, netEffect, hchanges, List.filter_map, List.getLast?_map, Option.map_map]
  simp only [Function.comp_def, pushedChange]
  cases (((push.commits.getD []).flatMap (·.changes)).filter fun change => change.target = path).getLast? <;> rfl

/-! ### Two pushes -/

inductive Push where
  | github (push : GitHubPush)
  | devOps (push : DevOpsPush)
  deriving DecidableEq

/-- An id that the payload brings along. -/
def ownId (value : Option String) : Option String := value.filter (· ≠ "")

theorem orElse_eq (value : Option String) (default : String) :
    orElse value default = (ownId value).getD default := by
  cases value with
  | none => rfl
  | some s =>
    by_cases h : s = ""
    · simp [orElse, ownId, Option.filter, h]
    · simp [orElse, ownId, Option.filter, h]

namespace Push

def provider : Push → String
  | github _ => "github"
  | devOps _ => "azure-devops"

def idPrefix : Push → String
  | github _ => "github:"
  | devOps _ => "ado:"

def repository : Push → String
  | github push => push.fullName
  | devOps push => push.repoId

/-- The ref that was pushed to. -/
def ref : Push → Option String
  | github push => some push.effectiveRef
  | devOps push => push.effectiveRef

/-- The commit that the ref was left at. -/
def head : Push → Option String
  | github push => some push.commit
  | devOps push => push.commit

def deliveryId : Push → Option String
  | github push => ownId push.deliveryId
  | devOps push => ownId push.id

/-- The paths that the commits name. -/
def paths : Push → List String
  | github push => push.commits.flatMap fun c => c.added ++ c.modified ++ c.removed
  | devOps push => (push.commits.getD []).flatMap fun c => c.changes.map (·.target)

def effect : Push → String → Option ChangeType
  | github push => push.effect
  | devOps push => push.effect lower

def normalize : Push → Option NormalizedEvent
  | github push => some (githubPushEvent lower fileLoader push)
  | devOps push => azureDevopsPushEvent lower fileLoader push

/-- What is left of the operations once they are gathered. -/
def gathered : Push → List (String × ChangeType)
  | github push => sortedBy Prod.fst push.changed.rows
  | devOps push => (push.commits.getD []).flatMap fun c => c.changes.map fun change =>
      (change.target, change.kind lower)

def defaultId (p : Push) (head : String) : String := p.idPrefix ++ p.repository ++ ":" ++ head

/-- Both normalizations have one form. -/
theorem normalize_eq_some {p : Push} {e : NormalizedEvent} :
    p.normalize lower fileLoader = some e ↔ ∃ ref head, p.ref = some ref ∧ p.head = some head ∧
      e = ⟨p.deliveryId.getD (p.defaultId head), (p.gathered lower).map fun op =>
        pushedChange lower fileLoader p.provider p.repository (branchOf ref) head op.1 op.2⟩ := by
  cases p with
  | github push =>
    simp only [normalize, githubPushEvent, ref, head, Option.some.injEq, orElse_eq]
    constructor
    · rintro rfl
      exact ⟨_, _, rfl, rfl, rfl⟩
    · rintro ⟨_, _, rfl, rfl, rfl⟩
      rfl
  | devOps push =>
    simp only [normalize, azureDevopsPushEvent, bind, Option.bind_eq_some_iff, ref, head, Option.some.injEq,
      orElse_eq]
    simp only [gathered, List.map_flatMap, List.map_map, Function.comp_def]
    constructor
    · rintro ⟨ref, href, head, hhead, rfl⟩
      exact ⟨ref, head, href, hhead, rfl⟩
    · rintro ⟨ref, head, href, hhead, rfl⟩
      exact ⟨ref, href, head, hhead, rfl⟩

/-- What stands before the path in a document id, after the provider. -/
def place (p : Push) (ref : String) : String := p.repository ++ ":" ++ branchOf ref

/-- The branch that was pushed to. -/
def branch (p : Push) : String × String × Option String := (p.provider, p.repository, p.ref)

end Push

/-- The push is normalized to changes that come to what its operations come to, and say one thing of each
document. -/
def Sound (p : Push) : Prop :=
  ∃ e, p.normalize lower fileLoader = some e ∧ (∀ path, netEffect e.changes path = p.effect lower path) ∧
    ∀ c ∈ e.changes, ∀ d ∈ e.changes, c.source.documentId = d.source.documentId → c = d

/-- Pushes to two branches share no event id and no document id. -/
def Apart (p q : Push) : Prop :=
  p.branch ≠ q.branch → ∀ e f,
    p.normalize lower fileLoader = some e → q.normalize lower fileLoader = some f →
    e.eventId ≠ f.eventId ∧
      ∀ c ∈ e.changes, ∀ d ∈ f.changes, c.source.documentId ≠ d.source.documentId

/-- An Azure DevOps push names a ref and a commit where it lists them, and its operations on a path are of
one kind. -/
def Regular : Push → Prop
  | .github _ => True
  | .devOps push => push.refUpdates ≠ some [] ∧ push.commits ≠ some [] ∧
      ∀ c ∈ (push.commits.getD []).flatMap (·.changes), ∀ d ∈ (push.commits.getD []).flatMap (·.changes),
        c.target = d.target → c.kind lower = d.kind lower

/-- Two pairs that read the same once a colon joins them. -/
def Coincide (s path s' path' : String) : Prop :=
  (s = s' ∧ path = path') ∨ (∃ t, s' = s ++ ":" ++ t ∧ path = t ++ ":" ++ path') ∨
    ∃ t, s = s' ++ ":" ++ t ∧ path' = t ++ ":" ++ path

/-- The ids that the payloads bring along are one, or what stands in for them is. -/
def SameId (p q : Push) : Prop :=
  ∃ head head', p.head = some head ∧ q.head = some head' ∧
    match p.deliveryId, q.deliveryId with
    | some i, some j => i = j
    | some i, none => i = q.defaultId head'
    | none, some j => p.defaultId head = j
    | none, none => p.provider = q.provider ∧ Coincide p.repository head q.repository head'

/-- A path of the one and a path of the other that coincide, with the last segments of the refs. -/
def Shared (p q : Push) : Prop :=
  ∃ ref ref', p.ref = some ref ∧ q.ref = some ref' ∧ p.provider = q.provider ∧
    ∃ path ∈ p.paths, ∃ path' ∈ q.paths, Coincide (p.place ref) path (q.place ref') path'

/-- Pushes to two branches of which neither the ids nor a path coincide. -/
def Separate (p q : Push) : Prop := p.branch ≠ q.branch → ¬SameId p q ∧ ¬Shared p q

theorem coincide_iff {s path s' path' : String} :
    s ++ ":" ++ path = s' ++ ":" ++ path' ↔ Coincide s path s' path' := by
  constructor
  · intro h
    have hlist : s.toList ++ ':' :: path.toList = s'.toList ++ ':' :: path'.toList := by
      simpa using congrArg String.toList h
    -- one of the two starts is a prefix of the other: what is left of it is empty, or starts with the colon
    rcases List.append_eq_append_iff.mp hlist with ⟨rest, hs, hpath⟩ | ⟨rest, hs, hpath⟩
    · cases rest with
      | nil =>
        refine .inl ⟨?_, ?_⟩
        · exact (String.toList_inj.mp (by simpa using hs)).symm
        · exact String.toList_inj.mp (List.cons.inj hpath).2
      | cons c t =>
        obtain ⟨rfl, ht⟩ := List.cons.inj hpath
        refine .inr (.inl ⟨String.ofList t, ?_, ?_⟩)
        · exact String.toList_inj.mp (by simpa using hs)
        · exact String.toList_inj.mp (by simpa using ht)
    · cases rest with
      | nil =>
        refine .inl ⟨?_, ?_⟩
        · exact String.toList_inj.mp (by simpa using hs)
        · exact (String.toList_inj.mp (List.cons.inj hpath).2).symm
      | cons c t =>
        obtain ⟨rfl, ht⟩ := List.cons.inj hpath
        refine .inr (.inr ⟨String.ofList t, ?_, ?_⟩)
        · exact String.toList_inj.mp (by simpa using hs)
        · exact String.toList_inj.mp (by simpa using ht)
  · rintro (⟨rfl, rfl⟩ | ⟨t, rfl, rfl⟩ | ⟨t, rfl, rfl⟩)
    · rfl
    · simp [String.append_assoc]
    · simp [String.append_assoc]

theorem append_ne (s s' : String) {c c' : Char} (hs : s.toList.head? = some c) (hs' : s'.toList.head? = some c')
    (hne : c ≠ c') (t t' : String) : s ++ t ≠ s' ++ t' := by
  intro h
  have hhead : (s ++ t).toList.head? = (s' ++ t').toList.head? := by rw [h]
  rw [String.toList_append, String.toList_append, List.head?_append, List.head?_append, hs, hs'] at hhead
  exact hne (Option.some.inj hhead)

/-- What an id starts with is given by the provider, and gives it. -/
theorem provider_append {p q : Push} {t t' : String} :
    p.provider ++ ":" ++ t = q.provider ++ ":" ++ t' ↔ p.provider = q.provider ∧ t = t' := by
  cases p with
  | github _ =>
    cases q with
    | github _ => simp [Push.provider, String.append_right_inj]
    | devOps _ =>
      have hne := append_ne "github:" "azure-devops:" rfl rfl (by decide) t t'
      simp [Push.provider, hne]
  | devOps _ =>
    cases q with
    | github _ =>
      have hne := append_ne "azure-devops:" "github:" rfl rfl (by decide) t t'
      simp [Push.provider, hne]
    | devOps _ => simp [Push.provider, String.append_right_inj]

theorem idPrefix_append {p q : Push} {t t' : String} :
    p.idPrefix ++ t = q.idPrefix ++ t' ↔ p.provider = q.provider ∧ t = t' := by
  cases p with
  | github _ =>
    cases q with
    | github _ => simp [Push.idPrefix, Push.provider, String.append_right_inj]
    | devOps _ =>
      have hne := append_ne "github:" "ado:" rfl rfl (by decide) t t'
      simp [Push.idPrefix, Push.provider, hne]
  | devOps _ =>
    cases q with
    | github _ =>
      have hne := append_ne "ado:" "github:" rfl rfl (by decide) t t'
      simp [Push.idPrefix, Push.provider, hne]
    | devOps _ => simp [Push.idPrefix, Push.provider, String.append_right_inj]

theorem defaultId_eq {p q : Push} {head head' : String} :
    p.defaultId head = q.defaultId head' ↔
      p.provider = q.provider ∧ Coincide p.repository head q.repository head' := by
  rw [← coincide_iff, ← idPrefix_append, Push.defaultId, Push.defaultId]
  simp only [String.append_assoc]

/-! ### What is gathered -/

theorem GitHubPush.effect_eq_none {push : GitHubPush} {path : String} :
    push.effect path = none ↔ path ∉ Push.paths (.github push) := by
  have hfold : ∀ (commits : List GitHubCommit) (before : Option ChangeType),
      commits.foldl (fun before c => c.effect path before) before = none ↔
        before = none ∧ path ∉ commits.flatMap fun c => c.added ++ c.modified ++ c.removed := by
    intro commits
    induction commits with
    | nil => simp
    | cons c commits ih =>
      intro before
      rw [List.foldl_cons, ih, GitHubCommit.effect, List.flatMap_cons]
      simp only [List.mem_append, not_or]
      split_ifs with hremoved hadded
      · simp [hremoved]
      · rcases hadded with h | h <;> simp [h]
      · simp only [not_or] at hadded
        simp [hremoved, hadded]
  simpa [GitHubPush.effect, Push.paths] using hfold push.commits none

/-- What is gathered is of the paths that the commits name, and of no others. -/
theorem Push.mem_paths {p : Push} {path : String} :
    path ∈ p.paths ↔ ∃ op ∈ p.gathered lower, op.1 = path := by
  cases p with
  | github push =>
    have hnone : push.effect path = none ↔ path ∉ push.changed.rows.map Prod.fst := by
      rw [← push.get_changed, Option.map_eq_none_iff, Table.get_eq_none_iff]
    rw [← not_iff_not, ← GitHubPush.effect_eq_none, hnone]
    simp [gathered]
  | devOps push => simp [paths, gathered]

/-- No path is gathered with two kinds. -/
def Consistent (p : Push) : Prop :=
  ∀ op ∈ p.gathered lower, ∀ op' ∈ p.gathered lower, op.1 = op'.1 → op.2 = op'.2

theorem consistent_github (push : GitHubPush) : Consistent lower (.github push) := by
  intro op hop op' hop' hpath
  have hrows : op = op' := List.inj_on_of_nodup_map push.changed.unique (mem_sortedBy.mp hop)
    (mem_sortedBy.mp hop') hpath
  rw [hrows]

theorem consistent_devOps {push : DevOpsPush} : Consistent lower (.devOps push) ↔
    ∀ c ∈ (push.commits.getD []).flatMap (·.changes), ∀ d ∈ (push.commits.getD []).flatMap (·.changes),
      c.target = d.target → c.kind lower = d.kind lower := by
  have hgathered : (Push.devOps push).gathered lower =
      ((push.commits.getD []).flatMap (·.changes)).map fun change => (change.target, change.kind lower) :=
    (List.map_flatMap ..).symm
  rw [Consistent, hgathered]
  simp only [List.forall_mem_map]

theorem normalizes_iff {p : Push} : (∃ e, p.normalize lower fileLoader = some e) ↔
    (∃ ref, p.ref = some ref) ∧ ∃ head, p.head = some head := by
  simp only [Push.normalize_eq_some]
  constructor
  · rintro ⟨e, ref, head, href, hhead, -⟩
    exact ⟨⟨ref, href⟩, head, hhead⟩
  · rintro ⟨⟨ref, href⟩, head, hhead⟩
    exact ⟨_, ref, head, href, hhead, rfl⟩

theorem DevOpsPush.effectiveRef_isSome {push : DevOpsPush} :
    (∃ ref, push.effectiveRef = some ref) ↔ push.refUpdates ≠ some [] := by
  unfold DevOpsPush.effectiveRef
  cases push.refUpdates with
  | none => simp
  | some updates => cases updates <;> simp

theorem DevOpsPush.commit_isSome {push : DevOpsPush} :
    (∃ head, push.commit = some head) ↔ push.commits ≠ some [] := by
  unfold DevOpsPush.commit
  cases push.commits with
  | none => simp
  | some commits =>
    cases commits with
    | nil => simp
    | cons c commits => simp [List.getLast?_eq_some_getLast (List.cons_ne_nil c commits)]

theorem regular_iff {p : Push} : Regular lower p ↔
    (∃ ref, p.ref = some ref) ∧ (∃ head, p.head = some head) ∧ Consistent lower p := by
  cases p with
  | github push => simp [Regular, Push.ref, Push.head, consistent_github]
  | devOps push =>
    rw [consistent_devOps]
    simp only [Regular, Push.ref, Push.head, DevOpsPush.effectiveRef_isSome, DevOpsPush.commit_isSome]

/-! ### Soundness and separation -/

theorem Push.normalize_netEffect {p : Push} {e : NormalizedEvent} (h : p.normalize lower fileLoader = some e)
    (path : String) : netEffect e.changes path = p.effect lower path := by
  cases p with
  | github push =>
    obtain rfl := Option.some.inj h
    exact githubPushEvent_netEffect lower fileLoader push path
  | devOps push => exact azureDevopsPushEvent_netEffect lower fileLoader h path

theorem sound_iff {p : Push} : Sound lower fileLoader p ↔ Regular lower p := by
  rw [regular_iff, ← and_assoc, ← normalizes_iff lower fileLoader]
  constructor
  · rintro ⟨e, he, -, hone⟩
    refine ⟨⟨e, he⟩, fun op hop op' hop' hpath => ?_⟩
    obtain ⟨ref, head, -, -, rfl⟩ := (Push.normalize_eq_some lower fileLoader).mp he
    have hsame := hone _ (List.mem_map_of_mem hop) _ (List.mem_map_of_mem hop')
      (by simp [SourceIdentity.documentId, pushedChange, hpath])
    exact congrArg FileChange.changeType hsame
  · rintro ⟨⟨e, he⟩, hconsistent⟩
    refine ⟨e, he, Push.normalize_netEffect lower fileLoader he, ?_⟩
    obtain ⟨ref, head, -, -, rfl⟩ := (Push.normalize_eq_some lower fileLoader).mp he
    simp only [List.forall_mem_map]
    intro op hop op' hop' hid
    have hpath : op.1 = op'.1 := (String.append_right_inj _).mp hid
    rw [hpath, hconsistent op hop op' hop' hpath]

/-- Two changes are of one document if the provider is one, and place and path coincide. -/
theorem documentId_eq {p q : Push} {ref ref' head head' : String} {op op' : String × ChangeType} :
    (pushedChange lower fileLoader p.provider p.repository (branchOf ref) head op.1 op.2).source.documentId =
        (pushedChange lower fileLoader q.provider q.repository (branchOf ref') head' op'.1
          op'.2).source.documentId ↔
      p.provider = q.provider ∧ Coincide (p.place ref) op.1 (q.place ref') op'.1 := by
  rw [← coincide_iff, ← provider_append]
  simp only [pushedChange, SourceIdentity.documentId, Push.place, String.append_assoc]

theorem apart_iff {p q : Push} {e f : NormalizedEvent} (he : p.normalize lower fileLoader = some e)
    (hf : q.normalize lower fileLoader = some f) :
    (e.eventId = f.eventId ↔ SameId p q) ∧
      ((∃ c ∈ e.changes, ∃ d ∈ f.changes, c.source.documentId = d.source.documentId) ↔ Shared p q) := by
  obtain ⟨ref, head, href, hhead, rfl⟩ := (Push.normalize_eq_some lower fileLoader).mp he
  obtain ⟨ref', head', href', hhead', rfl⟩ := (Push.normalize_eq_some lower fileLoader).mp hf
  constructor
  · simp only [SameId, hhead, hhead', Option.some.injEq, exists_and_left, exists_eq_left']
    cases p.deliveryId with
    | some i => cases q.deliveryId <;> rfl
    | none =>
      cases q.deliveryId with
      | some j => rfl
      | none => exact defaultId_eq
  · constructor
    · rintro ⟨c, hc, d, hd, hsame⟩
      obtain ⟨op, hop, rfl⟩ := List.mem_map.mp hc
      obtain ⟨op', hop', rfl⟩ := List.mem_map.mp hd
      obtain ⟨hprovider, hplace⟩ := (documentId_eq lower fileLoader).mp hsame
      exact ⟨ref, ref', href, href', hprovider, op.1, (Push.mem_paths lower).mpr ⟨op, hop, rfl⟩, op'.1,
        (Push.mem_paths lower).mpr ⟨op', hop', rfl⟩, hplace⟩
    · rintro ⟨r, r', hr, hr', hprovider, path, hpath, path', hpath', hplace⟩
      obtain rfl := Option.some.inj (href.symm.trans hr)
      obtain rfl := Option.some.inj (href'.symm.trans hr')
      obtain ⟨op, hop, rfl⟩ := (Push.mem_paths lower).mp hpath
      obtain ⟨op', hop', rfl⟩ := (Push.mem_paths lower).mp hpath'
      exact ⟨_, List.mem_map_of_mem hop, _, List.mem_map_of_mem hop',
        (documentId_eq lower fileLoader).mpr ⟨hprovider, hplace⟩⟩

/-- Two pushes are normalized soundly, and kept apart, if and only if both are regular and they are separate. -/
theorem pushes_sound_and_apart_iff (p q : Push) :
    (Sound lower fileLoader p ∧ Sound lower fileLoader q ∧ Apart lower fileLoader p q) ↔
      Regular lower p ∧ Regular lower q ∧ Separate p q := by
  rw [sound_iff, sound_iff]
  refine and_congr_right fun hp => and_congr_right fun hq => ?_
  obtain ⟨e, he, -⟩ := (sound_iff lower fileLoader).mpr hp
  obtain ⟨f, hf, -⟩ := (sound_iff lower fileLoader).mpr hq
  obtain ⟨hid, hshared⟩ := apart_iff lower fileLoader he hf
  refine imp_congr_right fun _ => ?_
  rw [← hid, ← hshared]
  constructor
  · intro h
    obtain ⟨hne, hdocs⟩ := h e f he hf
    exact ⟨hne, fun ⟨c, hc, d, hd, hsame⟩ => hdocs c hc d hd hsame⟩
  · rintro ⟨hne, hdocs⟩ e' f' he' hf'
    obtain rfl := Option.some.inj (he.symm.trans he')
    obtain rfl := Option.some.inj (hf.symm.trans hf')
    exact ⟨hne, fun c hc d hd hsame => hdocs ⟨c, hc, d, hd, hsame⟩⟩

/-- Pushes of one file to `feature/login` and to `hotfix/login` of a repository share a document. -/
theorem branches_of_one_segment : ¬∀ p q : Push, Sound id (fun _ _ _ => some "") p ∧
    Sound id (fun _ _ _ => some "") q ∧ Apart id (fun _ _ _ => some "") p q := by
  intro h
  obtain ⟨-, -, hapart⟩ := h
    (.github ⟨"acme/api", some "refs/heads/feature/login", some "c1", some "d1", [⟨[], ["app.py"], []⟩]⟩)
    (.github ⟨"acme/api", some "refs/heads/hotfix/login", some "c2", some "d2", [⟨[], ["app.py"], []⟩]⟩)
  obtain ⟨-, hdocs⟩ := hapart (by decide) _ _ rfl rfl
  exact hdocs _ (List.mem_singleton_self _) _ (List.mem_singleton_self _) (by decide)

end

end EngineeringIntelligence.Ingestion
