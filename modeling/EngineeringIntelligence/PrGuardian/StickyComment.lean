import EngineeringIntelligence.PrGuardian.Publisher

namespace EngineeringIntelligence.PrGuardian

open EngineeringIntelligence.Framework

/-! The sticky comment of the GitHub client: one listing of the issue comments, then one write. -/

/-- An issue comment as GitHub lists it; where the account is gone there is no login. -/
structure IssueComment where
  id : Nat
  login : Option String
  body : String
  deriving DecidableEq, Repr

/-- What a call of the client raises. -/
inductive ClientError where
  | value (message : String)
  | runtime (message : String)
  | api (status : Nat)
  deriving DecidableEq, Repr

/-- `INSTALLATION_TOKEN_LOGIN`. -/
def installationTokenLogin : String := "github-actions[bot]"

/-- `_authenticated_login`; `answer` is what `GET /user` gives, or the status it fails with. -/
def authenticatedLogin (answer : Except Nat Json) : Except ClientError String :=
  match answer with
  | .error status => if status = 401 ∨ status = 403 then .ok installationTokenLogin else .error (.api status)
  | .ok (.obj fields) =>
    if textOf fields "login" = "" then
      .error (.runtime "GitHub authenticated-user response did not include a login")
    else .ok (textOf fields "login")
  | .ok _ => .error (.runtime "GitHub authenticated-user response did not include a login")

/-- An account whose comments carry the login the client resolves for it. -/
structure Actor where
  answer : Except Nat Json
  login : String
  resolved : authenticatedLogin answer = .ok login

theorem authenticatedLogin_ne {answer : Except Nat Json} {login : String}
    (h : authenticatedLogin answer = .ok login) : login ≠ "" := by
  unfold authenticatedLogin at h
  split at h
  · split at h
    · rw [← Except.ok.inj h]
      decide
    · cases h
  · split at h
    · cases h
    · next hlogin => rwa [← Except.ok.inj h]
  · cases h

def isStickyMarker (marker : String) : Bool :=
  startsWithAny marker ["<!-- eip-"] && endsWithAny marker [" -->"]

def markedBody (marker body : String) : String :=
  if hasInfix body marker then body else marker ++ "\n" ++ body

/-- The comment carries the marker and is the actor's. -/
def IssueComment.isOwn (login marker : String) (comment : IssueComment) : Bool :=
  hasInfix comment.body marker && comment.login.getD "" = login

/-- `per_page=100`, the only page that is read. -/
def pageSize : Nat := 100

/-- The newest comment of the page that carries the marker and is the actor's. -/
def latestOwn (login marker : String) (comments : List IssueComment) : Option IssueComment :=
  (comments.take pageSize).reverse.find? (IssueComment.isOwn login marker)

def latestCommentWithMarker (answer : Except Nat Json) (marker : String) (comments : List IssueComment) :
    Except ClientError (Option String) :=
  if isStickyMarker marker then do
    let login ← authenticatedLogin answer
    .ok ((latestOwn login marker comments).map (·.body))
  else .error (.value "comment marker must be an EIP HTML marker")

/-- The request that ends a call of `publish_sticky_comment`. -/
inductive StickyWrite where
  | patch (id : Nat) (body : String)
  | post (body : String)
  deriving DecidableEq, Repr

/-- `publish_sticky_comment` up to its write; `comments` is what stands on the pull request at its listing. -/
def publishStickyComment (answer : Except Nat Json) (marker body : String) (comments : List IssueComment) :
    Except ClientError StickyWrite :=
  if isStickyMarker marker then do
    let login ← authenticatedLogin answer
    match latestOwn login marker comments with
    | some comment => .ok (.patch comment.id (markedBody marker body))
    | none => .ok (.post (markedBody marker body))
  else .error (.value "sticky marker must be an EIP HTML marker")

/-- Whatever is published carries the marker. -/
theorem hasInfix_markedBody (marker body : String) : hasInfix (markedBody marker body) marker = true := by
  unfold markedBody
  by_cases h : hasInfix body marker
  · rwa [if_pos h]
  · rw [if_neg h]
    apply hasInfix_of_starts
    rw [String.toList_append, String.toList_append, List.append_assoc]
    exact List.prefix_append _ _

end EngineeringIntelligence.PrGuardian
