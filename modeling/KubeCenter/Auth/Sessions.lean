import KubeCenter.Lib.Go
import KubeCenter.Lib.Reactive

/-! # Refresh sessions

The session store of `session.go` and login, refresh and logout on it (`handle_auth.go`,
`response.go`, `ldap.go`). A refresh removes its session in one step, works on it outside any lock,
then stores a successor, puts it back, or lets it go. Refresh tokens are numbers, drawn in order. -/
namespace KubeCenter.Auth
open Lib Go

inductive Provider where
  | local
  | oidc
  | ldap
deriving DecidableEq

structure User where
  id : String
  username : String
  provider : Provider
  kubernetesUsername : String
  kubernetesGroups : List String
  roles : List String
deriving DecidableEq

structure UserRecord where
  id : String
  username : String
  k8sUsername : String
  k8sGroups : List String
  roles : List String
deriving DecidableEq

def UserRecord.toUser (r : UserRecord) : User :=
  ⟨r.id, r.username, .local, r.k8sUsername, r.k8sGroups, r.roles⟩

/-! ## The directory -/

structure LDAPConfig where
  id : String
  usernameMapAttr : String
  groupsPrefix : String
deriving DecidableEq

structure LDAPEntry where
  dn : String
  attributes : List (String × String)
deriving DecidableEq

def LDAPEntry.getAttributeValue (entry : LDAPEntry) (attr : String) : String :=
  (entry.attributes.lookup attr).getD ""

def firstValue (entry : LDAPEntry) (attrs : List String) : String :=
  ((attrs.map entry.getAttributeValue).find? (· ≠ "")).getD entry.dn

def mapToUser (config : LDAPConfig) (entry : LDAPEntry) (groups : List String) : User :=
  let k8sUsername := firstValue entry [config.usernameMapAttr, "uid", "sAMAccountName", "mail"]
  let cn := entry.getAttributeValue "cn"
  { id := "ldap:" ++ config.id ++ ":" ++ entry.dn
    username := if cn = "" then k8sUsername else cn
    provider := .ldap
    kubernetesUsername := k8sUsername
    kubernetesGroups := "k8scenter:users" :: groups.map (config.groupsPrefix ++ ·)
    roles := ["user"] }

/-- How far `Revalidate` gets with the directory: each entry comes with its groups. -/
inductive DirectoryOutcome where
  | noConnection
  | cancelled
  | bindFailed
  | searchFailed (noSuchObject : Bool)
  | found (entries : List (LDAPEntry × List String))
deriving DecidableEq

inductive RevalidateError where
  | invalidCredentials
  | transient
deriving DecidableEq

def classifyLDAPError (noSuchObject : Bool) : RevalidateError :=
  if noSuchObject then .invalidCredentials else .transient

def revalidate (config : LDAPConfig) (userDN : String) (o : DirectoryOutcome) :
    Except RevalidateError User :=
  if userDN = "" then .error .invalidCredentials
  else
    match o with
    | .noConnection => .error .transient
    | .cancelled => .error .transient
    | .bindFailed => .error .transient
    | .searchFailed noSuchObject => .error (classifyLDAPError noSuchObject)
    | .found [(entry, groups)] => .ok (mapToUser config entry groups)
    | .found _ => .error .invalidCredentials

/-! ## Sessions -/

structure RefreshSession where
  token : ℕ
  userID : String
  provider : Provider
  expiresAt : Time
  cachedUser : Option User
  lastRevalidated : Time
deriving DecidableEq

def refreshLifetimeFor : Provider → Duration
  | .oidc => 1 * hour
  | .ldap => 1 * hour
  | .local => 7 * 24 * hour

def ldapGracePeriod : Duration := 5 * minute

def sessionFor (token : ℕ) (user : User) (expiresAt lastRevalidated : Time) : RefreshSession where
  token := token
  userID := user.id
  provider := user.provider
  expiresAt := expiresAt
  cachedUser := if user.provider ≠ .local then some user else none
  lastRevalidated := lastRevalidated

inductive CredentialProvider where
  | local
  | ldap (config : LDAPConfig)
deriving DecidableEq

/-- Where the user of a refresh comes from. `grace` has the time of the check. -/
inductive Origin where
  | directory
  | grace (checkedAt : Time)
  | stored
deriving DecidableEq

/-- Tokens for a user, put back and refused, or refused for good. -/
inductive Resolution where
  | issue (user : User) (lastRevalidated : Time) (origin : Origin)
  | restore (message : String)
  | reject (message : String)
deriving DecidableEq

def revalidateLDAPSession (registry : String → Option CredentialProvider) (session : RefreshSession)
    (o : DirectoryOutcome) (now : Time) : Resolution :=
  match splitN ':' 3 session.userID.toList with
  | [scheme, providerID, userDN] =>
    if scheme ≠ "ldap".toList ∨ providerID = [] ∨ userDN = [] then .reject "session invalid"
    else
      match registry (String.ofList providerID) with
      | none => .reject "auth provider unavailable"
      | some .local => .reject "session invalid"
      | some (.ldap config) =>
        match revalidate config (String.ofList userDN) o with
        | .ok user => .issue user now .directory
        | .error .transient =>
          match session.cachedUser with
          | none => .restore "ldap unavailable, please retry"
          | some cachedUser =>
            if session.lastRevalidated = zeroTime ∨
                now.sub session.lastRevalidated > ldapGracePeriod then
              .restore "ldap unavailable, please retry"
            else .issue cachedUser session.lastRevalidated (.grace now)
        | .error .invalidCredentials => .reject "user no longer authorised"
  | _ => .reject "session invalid"

/-- `AuthRegistry.GetUserByID`: only local users have a store. -/
def getUserByID (provider : Provider) (record : Option UserRecord) : Option User :=
  match provider with
  | .local => record.map UserRecord.toUser
  | _ => none

def resolveUser (registry : String → Option CredentialProvider) (session : RefreshSession)
    (o : DirectoryOutcome) (record : Option UserRecord) (now : Time) : Resolution :=
  match session.provider with
  | .ldap => revalidateLDAPSession registry session o now
  | _ =>
    match session.cachedUser with
    | some user => .issue user now .stored
    | none =>
      match getUserByID session.provider record with
      | some user => .issue user now .stored
      | none => .reject "user not found"

/-! ## The server -/

inductive RefreshStage where
  | rotate
  | resolve (session : RefreshSession)
  | mint (session : RefreshSession) (user : User) (lastRevalidated : Time) (origin : Origin)
  | store (session : RefreshSession) (user : User) (expiresAt lastRevalidated : Time)
      (origin : Origin)
  | restore (session : RefreshSession) (status : ℕ) (message : String)
deriving DecidableEq

structure RefreshCall where
  token : ℕ
  stage : RefreshStage
deriving DecidableEq

structure AuthServer where
  sessions : ℕ → Option RefreshSession := fun _ => none
  nextToken : ℕ := 0
  calls : ℕ → Option RefreshCall := fun _ => none
  started : ℕ := 0
  now : Time

inductive AuthAction where
  | login (user : User)
  | refresh (token : ℕ)
  | rotate (call : ℕ)
  | resolve (call : ℕ) (o : DirectoryOutcome) (record : Option UserRecord)
  | mint (call : ℕ) (succeeds : Bool)
  | store (call : ℕ)
  | restore (call : ℕ)
  | logout (token : ℕ)
  | cleanup (token : ℕ)
  | elapse (d : ℕ)
deriving DecidableEq

inductive AuthEvent where
  | idle
  | loggedIn (token : ℕ) (user : User) (now : Time)
  | started (call token : ℕ)
  /-- The directory answered for the session of a token. -/
  | revalidated (call token : ℕ) (user : User) (now : Time)
  | issued (call token successor : ℕ) (user : User) (origin : Origin)
  | refused (call : ℕ) (status : ℕ) (message : String)
  /-- The session of a token is refused for good. -/
  | rejected (call token : ℕ) (status : ℕ) (message : String)
  | restored (call token : ℕ) (status : ℕ) (message : String)
  | loggedOut (token : ℕ)
deriving DecidableEq

namespace AuthServer

section

variable (s : AuthServer)

def goto (k : ℕ) (c : RefreshCall) (stage : RefreshStage) : AuthServer :=
  { s with calls := Function.update s.calls k (some { c with stage }) }

def finish (k : ℕ) : AuthServer := { s with calls := Function.update s.calls k none }

def start (token : ℕ) : AuthServer :=
  { s with
    started := s.started + 1
    calls := Function.update s.calls s.started (some ⟨token, .rotate⟩) }

/-- `sessions.Delete`. -/
def delete (token : ℕ) : AuthServer := { s with sessions := Function.update s.sessions token none }

/-- `sessions.Store`. -/
def put (session : RefreshSession) : AuthServer :=
  { s with sessions := Function.update s.sessions session.token (some session) }

def issue (user : User) (expiresAt lastRevalidated : Time) : AuthServer :=
  { s with nextToken := s.nextToken + 1 }.put
    (sessionFor s.nextToken user expiresAt lastRevalidated)

/-- `Sessions.Rotate`, and the answer to a token that has no session or an expired one. -/
def rotate (k : ℕ) (c : RefreshCall) : AuthEvent × AuthServer :=
  match c.stage with
  | .rotate =>
    match s.sessions c.token with
    | none => (.refused k 401 "invalid or expired refresh token", s.finish k)
    | some session =>
      if s.now > session.expiresAt then
        (.refused k 401 "invalid or expired refresh token", (s.delete c.token).finish k)
      else (.idle, (s.delete c.token).goto k c (.resolve session))
  | _ => (.idle, s)

end

def resolve (registry : String → Option CredentialProvider) (o : DirectoryOutcome)
    (record : Option UserRecord) (s : AuthServer) (k : ℕ) (c : RefreshCall) :
    AuthEvent × AuthServer :=
  match c.stage with
  | .resolve session =>
    match resolveUser registry session o record s.now with
    | .issue user lastRevalidated .directory =>
      (.revalidated k c.token user s.now,
        s.goto k c (.mint session user lastRevalidated .directory))
    | .issue user lastRevalidated origin =>
      (.idle, s.goto k c (.mint session user lastRevalidated origin))
    | .restore message => (.idle, s.goto k c (.restore session 401 message))
    | .reject message => (.rejected k c.token 401 message, s.finish k)
  | _ => (.idle, s)

/-- The fallible part of `issueTokenPairAt`. -/
def mint (succeeds : Bool) (s : AuthServer) (k : ℕ) (c : RefreshCall) : AuthEvent × AuthServer :=
  match c.stage with
  | .mint session user lastRevalidated origin =>
    if succeeds then
      (.idle, s.goto k c (.store session user (s.now + refreshLifetimeFor user.provider)
        lastRevalidated origin))
    else (.idle, s.goto k c (.restore session 500 "failed to issue token"))
  | _ => (.idle, s)

/-- `Sessions.Store` of the successor. -/
def store (s : AuthServer) (k : ℕ) (c : RefreshCall) : AuthEvent × AuthServer :=
  match c.stage with
  | .store _ user expiresAt lastRevalidated origin =>
    (.issued k c.token s.nextToken user origin, (s.issue user expiresAt lastRevalidated).finish k)
  | _ => (.idle, s)

/-- `Sessions.Restore`. -/
def restore (s : AuthServer) (k : ℕ) (c : RefreshCall) : AuthEvent × AuthServer :=
  match c.stage with
  | .restore session status message =>
    (.restored k c.token status message, (s.put session).finish k)
  | _ => (.idle, s)

def withCall (s : AuthServer) (k : ℕ)
    (step : AuthServer → ℕ → RefreshCall → AuthEvent × AuthServer) : AuthEvent × AuthServer :=
  match s.calls k with
  | some c => step s k c
  | none => (.idle, s)

def react (registry : String → Option CredentialProvider) (s : AuthServer) :
    AuthAction → AuthEvent × AuthServer
  | .login user =>
    (.loggedIn s.nextToken user s.now,
      s.issue user (s.now + refreshLifetimeFor user.provider) s.now)
  | .refresh token => (.started s.started token, s.start token)
  | .rotate k => s.withCall k rotate
  | .resolve k o record => s.withCall k (resolve registry o record)
  | .mint k succeeds => s.withCall k (mint succeeds)
  | .store k => s.withCall k store
  | .restore k => s.withCall k restore
  | .logout token => (.loggedOut token, s.delete token)
  | .cleanup token =>
    match s.sessions token with
    | some session => if s.now > session.expiresAt then (.idle, s.delete token) else (.idle, s)
    | none => (.idle, s)
  | .elapse d => (.idle, { s with now := s.now + d })

end AuthServer

def authServer (registry : String → Option CredentialProvider) (now : Time) :
    Reactive AuthServer AuthAction AuthEvent where
  init := { now }
  react := AuthServer.react registry

/-! ## What a step can do -/

def RefreshStage.held : RefreshStage → Option RefreshSession
  | .rotate => none
  | .resolve session => some session
  | .mint session _ _ _ => some session
  | .store session _ _ _ _ => some session
  | .restore session _ _ => some session

inductive AuthMove (registry : String → Option CredentialProvider) (s : AuthServer) :
    AuthEvent → AuthServer → Prop
  | stay : AuthMove registry s .idle s
  | elapse (d : ℕ) : AuthMove registry s .idle { s with now := s.now + d }
  | login (user : User) : AuthMove registry s (.loggedIn s.nextToken user s.now)
      (s.issue user (s.now + refreshLifetimeFor user.provider) s.now)
  | start (token : ℕ) : AuthMove registry s (.started s.started token) (s.start token)
  | refuse {k c} (hc : s.calls k = some c) (hstage : c.stage = .rotate) (status : ℕ)
      (message : String) : AuthMove registry s (.refused k status message) (s.finish k)
  | expire {k c} (hc : s.calls k = some c) (hstage : c.stage = .rotate) (status : ℕ)
      (message : String) :
      AuthMove registry s (.refused k status message) ((s.delete c.token).finish k)
  | rotate {k c session} (hc : s.calls k = some c) (hstage : c.stage = .rotate)
      (hsession : s.sessions c.token = some session) :
      AuthMove registry s .idle ((s.delete c.token).goto k c (.resolve session))
  /-- The directory returned the user. -/
  | revalidate {k c session user lastRevalidated o record} (hc : s.calls k = some c)
      (hstage : c.stage = .resolve session)
      (hresolved : resolveUser registry session o record s.now =
        .issue user lastRevalidated .directory) :
      AuthMove registry s (.revalidated k c.token user s.now)
        (s.goto k c (.mint session user lastRevalidated .directory))
  | reuse {k c session user lastRevalidated origin o record} (hc : s.calls k = some c)
      (hstage : c.stage = .resolve session) (horigin : origin ≠ .directory)
      (hresolved : resolveUser registry session o record s.now =
        .issue user lastRevalidated origin) :
      AuthMove registry s .idle (s.goto k c (.mint session user lastRevalidated origin))
  | reject {k c session} (hc : s.calls k = some c) (hstage : c.stage = .resolve session)
      (status : ℕ) (message : String) :
      AuthMove registry s (.rejected k c.token status message) (s.finish k)
  | mint {k c session user lastRevalidated origin} (hc : s.calls k = some c)
      (hstage : c.stage = .mint session user lastRevalidated origin) (expiresAt : Time) :
      AuthMove registry s .idle (s.goto k c (.store session user expiresAt lastRevalidated origin))
  | hold {k c session} (hc : s.calls k = some c) (hheld : c.stage.held = some session)
      (status : ℕ) (message : String) :
      AuthMove registry s .idle (s.goto k c (.restore session status message))
  | store {k c session user expiresAt lastRevalidated origin} (hc : s.calls k = some c)
      (hstage : c.stage = .store session user expiresAt lastRevalidated origin) :
      AuthMove registry s (.issued k c.token s.nextToken user origin)
        ((s.issue user expiresAt lastRevalidated).finish k)
  | restore {k c session status message} (hc : s.calls k = some c)
      (hstage : c.stage = .restore session status message) :
      AuthMove registry s (.restored k c.token status message) ((s.put session).finish k)
  | logout (token : ℕ) : AuthMove registry s (.loggedOut token) (s.delete token)
  | cleanup (token : ℕ) : AuthMove registry s .idle (s.delete token)

section

variable {registry : String → Option CredentialProvider} {s : AuthServer} {k : ℕ} {c : RefreshCall}

theorem AuthServer.rotate_move (hc : s.calls k = some c) :
    AuthMove registry s (s.rotate k c).1 (s.rotate k c).2 := by
  unfold AuthServer.rotate
  split
  case h_1 hsta =>
    split
    · exact .refuse hc hsta _ _
    next session hse =>
      split
      · exact .expire hc hsta _ _
      · exact .rotate hc hsta hse
  case h_2 => exact .stay

theorem AuthServer.resolve_move {o record} (hc : s.calls k = some c) :
    AuthMove registry s (resolve registry o record s k c).1
      (resolve registry o record s k c).2 := by
  unfold AuthServer.resolve
  split
  case h_1 session hsta =>
    split
    case h_1 user lastRevalidated hrs => exact .revalidate hc hsta hrs
    case h_2 user lastRevalidated origin hor hrs =>
      exact .reuse hc hsta hor hrs
    case h_3 message => exact .hold hc (by rw [hsta]; rfl) _ _
    case h_4 message => exact .reject hc hsta _ _
  case h_2 => exact .stay

theorem AuthServer.mint_move {succeeds : Bool} (hc : s.calls k = some c) :
    AuthMove registry s (mint succeeds s k c).1 (mint succeeds s k c).2 := by
  unfold AuthServer.mint
  split
  case h_1 session user lastRevalidated origin hsta =>
    cases succeeds with
    | true => exact .mint hc hsta _
    | false => exact .hold hc (by rw [hsta]; rfl) _ _
  case h_2 => exact .stay

theorem AuthServer.store_move (hc : s.calls k = some c) :
    AuthMove registry s (s.store k c).1 (s.store k c).2 := by
  unfold AuthServer.store
  split
  case h_1 session user expiresAt lastRevalidated origin hsta => exact .store hc hsta
  case h_2 => exact .stay

theorem AuthServer.restore_move (hc : s.calls k = some c) :
    AuthMove registry s (s.restore k c).1 (s.restore k c).2 := by
  unfold AuthServer.restore
  split
  case h_1 session status message hsta => exact .restore hc hsta
  case h_2 => exact .stay

theorem AuthServer.withCall_move {step}
    (hst : ∀ c, s.calls k = some c → AuthMove registry s (step s k c).1 (step s k c).2) :
    AuthMove registry s (s.withCall k step).1 (s.withCall k step).2 := by
  unfold AuthServer.withCall
  split
  case h_1 c hc => exact hst c hc
  case h_2 => exact .stay

theorem AuthServer.react_move (s : AuthServer) (registry : String → Option CredentialProvider)
    (a : AuthAction) :
    AuthMove registry s (s.react registry a).1 (s.react registry a).2 := by
  cases a with
  | login user => exact .login user
  | refresh token => exact .start token
  | rotate k => exact withCall_move fun c hc => rotate_move hc
  | resolve k o record => exact withCall_move fun c hc => resolve_move hc
  | mint k succeeds => exact withCall_move fun c hc => mint_move hc
  | store k => exact withCall_move fun c hc => store_move hc
  | restore k => exact withCall_move fun c hc => restore_move hc
  | logout token => exact .logout token
  | cleanup token =>
    simp only [AuthServer.react]
    split
    · split
      · exact .cleanup token
      · exact .stay
    · exact .stay
  | elapse d => exact .elapse d

end

end KubeCenter.Auth
