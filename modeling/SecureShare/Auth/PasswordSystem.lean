import SecureShare.Auth.SessionLifecycle

/-!
# Logging in, logging out and changing the password

The handlers as calls that take one statement a step. The log orders the passwords
that are written and the sessions that are created; nothing reads it but the
statements about the system.
-/
namespace SecureShare.Auth
open Go Library
open Library.Interleaving (System Reply)
open Delivery (UUID Bytes Dependencies)

/-- What the password check of a request has compared with: the user as it was read,
the hash in its row, and how long the log was then. -/
structure Verified where
  user : User
  hash : Text
  readAt : ℕ
  deriving DecidableEq, Repr

inductive PasswordEvent where
  | passwordSet (userID : UUID) (hash : Text)
  | issued (sessionID : UUID) (verified : Verified) (login : Bool)
  deriving DecidableEq, Repr

/-- The last event comes last. -/
structure PasswordStore where
  auth : AuthStore
  log : List PasswordEvent

structure PasswordService where
  manager : SessionManager
  deps : Dependencies
  fns : CaseFunctions
  appEnv : Text

/-- What a step obtains from outside. The database answers a query that may return
several rows with the one at `pick`. -/
structure PasswordInputs where
  reply : Reply
  databaseNow : ℤ
  now : ℤ
  pick : ℕ
  salt : Option ℕ
  idBytes : Option Bytes
  sessionID : Option UUID
  deriving DecidableEq, Repr

/-- The `cookie` of a request that has one. -/
structure LoginRequest where
  login : Text
  password : Text
  cookie : Option Text
  deriving DecidableEq, Repr

structure LogoutRequest where
  cookie : Option Text
  csrfToken : Text
  deriving DecidableEq, Repr

structure ChangePasswordRequest where
  cookie : Option Text
  csrfToken : Text
  currentPassword : Text
  newPassword : Text
  deriving DecidableEq, Repr

inductive LoginPhase where
  | finding
  | destroying (v : Verified)
  | issuing (v : Verified)
  | touching (session : Session)
  | answered (session : Session)
  | refused
  deriving DecidableEq, Repr

inductive LogoutPhase where
  | authorizing
  | destroying
  | answered
  | refused
  deriving DecidableEq, Repr

/-- `setAt` is the place in the log at which the new password is. -/
inductive ChangePhase where
  | authorizing
  | verifying (session : Session)
  | setting (session : Session) (v : Verified)
  | revoking (session : Session) (v : Verified) (setAt : ℕ)
  | destroying (session : Session) (v : Verified) (setAt : ℕ)
  | issuing (session : Session) (v : Verified) (setAt : ℕ)
  | answered (session : Session) (setAt : ℕ)
  | refused
  deriving DecidableEq, Repr

inductive PasswordCall where
  | login (req : LoginRequest) (phase : LoginPhase)
  | logout (req : LogoutRequest) (phase : LogoutPhase)
  | changePassword (req : ChangePasswordRequest) (phase : ChangePhase)
  deriving DecidableEq, Repr

inductive PasswordRequest where
  | login (req : LoginRequest)
  | logout (req : LogoutRequest)
  | changePassword (req : ChangePasswordRequest)
  deriving DecidableEq, Repr

def PasswordRequest.call : PasswordRequest → PasswordCall
  | .login req => .login req .finding
  | .logout req => .logout req .authorizing
  | .changePassword req => .changePassword req .authorizing

namespace PasswordService
variable (svc : PasswordService) (inputs : PasswordInputs) (s : PasswordStore)

/-- A statement on the tables, which leaves the log as it is. -/
def onTables {α : Type} (r : Option (AuthStore × α)) : Option (PasswordStore × α) :=
  r.map fun r => ({ s with auth := r.1 }, r.2)

/-- `Authenticate` -/
def authenticate (login password : Text) : Option Verified :=
  let rows := Repository.usersForLogin s.auth.users svc.fns login
  (inputs.reply.apply s ((rows[inputs.pick]?).map fun r => (s, r))).2.bind fun r =>
    if r.status = .active ∧ svc.deps.verifyPassword password r.passwordHash then
      some ⟨r.toUser, r.passwordHash, s.log.length⟩
    else none

/-- `FromRequest` as one statement. -/
def fromRequest (cookie : Option Text) : PasswordStore × Option Session :=
  inputs.reply.apply s (onTables s (svc.manager.fromRequest inputs.now s.auth cookie))

/-- `Destroy`, whose error is dropped. -/
def destroy (cookie : Option Text) : PasswordStore :=
  (inputs.reply.apply s (onTables s (svc.manager.destroy inputs.databaseNow s.auth cookie))).1

/-- `CreateForUser` -/
def issue (v : Verified) (login : Bool) : PasswordStore × Option Session :=
  inputs.reply.apply s ((svc.manager.issue inputs.databaseNow inputs.now s.auth inputs.idBytes
    inputs.sessionID v.user).map fun r =>
      (⟨r.1, s.log ++ [.issued r.2.sessionID v login]⟩, r.2))

/-- `SetPassword`; without a hash there is no statement. -/
def setPassword (userID : UUID) (password : Text) : PasswordStore × Option Unit :=
  inputs.reply.apply s ((svc.deps.hashPassword inputs.salt password).bind fun hash =>
    (Repository.setPassword inputs.databaseNow s.auth.users userID hash false).map fun r =>
      (⟨{ s.auth with users := r.1 }, s.log ++ [.passwordSet userID hash]⟩, r.2))

/-- `RevokeOtherSessions`, whose error is only logged. -/
def revokeOtherSessions (session : Session) : PasswordStore :=
  (inputs.reply.apply s (onTables s (Repository.revokeOtherSessions inputs.databaseNow s.auth
    session.userID (svc.manager.tokenHash session.id)))).1

/-- One step of `handleLogin`. -/
def login (req : LoginRequest) : LoginPhase → Option (PasswordStore × LoginPhase)
  | .finding =>
    some (s, match svc.authenticate inputs s req.login req.password with
      | none => .refused
      | some v => if req.cookie.isSome then .destroying v else .issuing v)
  | .destroying v => some (svc.destroy inputs s req.cookie, .issuing v)
  | .issuing v =>
    let r := svc.issue inputs s v true
    some (r.1, match r.2 with
      | none => .refused
      | some session => .touching session)
  | .touching session =>
    -- a failed update is only logged
    some ((inputs.reply.apply s ((Repository.touchLastLogin inputs.databaseNow s.auth.users
        session.userID).map fun r => ({ s with auth := { s.auth with users := r.1 } }, r.2))).1,
      .answered session)
  | .answered _ | .refused => none

/-- One step of `handleLogout` and of `handleBrowserLogout`. -/
def logout (req : LogoutRequest) : LogoutPhase → Option (PasswordStore × LogoutPhase)
  | .authorizing =>
    let r := svc.fromRequest inputs s req.cookie
    some (r.1, match r.2 with
      | none => .refused
      | some session =>
        if svc.manager.validCSRF session req.csrfToken then .destroying else .refused)
  | .destroying => some (svc.destroy inputs s req.cookie, .answered)
  | .answered | .refused => none

/-- One step of `handleChangePassword`, for a request without other credentials. -/
def changePassword (req : ChangePasswordRequest) :
    ChangePhase → Option (PasswordStore × ChangePhase)
  | .authorizing =>
    let r := svc.fromRequest inputs s req.cookie
    some (r.1, match r.2 with
      | none => .refused
      | some session =>
        if "account:manage".toList ∈ session.permissions ∧
            svc.manager.validCSRF session req.csrfToken then .verifying session
        else .refused)
  | .verifying session =>
    some (s, match svc.authenticate inputs s session.username req.currentPassword with
      | none => .refused
      | some v =>
        if v.user.id = session.userID ∧
            validUserPassword req.newPassword (svc.appEnv ≠ "development".toList) then
          .setting session v
        else .refused)
  | .setting session v =>
    let r := svc.setPassword inputs s session.userID req.newPassword
    some (r.1, match r.2 with
      | none => .refused
      | some () => .revoking session v s.log.length)
  | .revoking session v setAt =>
    some (svc.revokeOtherSessions inputs s session, .destroying session v setAt)
  | .destroying session v setAt => some (svc.destroy inputs s req.cookie, .issuing session v setAt)
  | .issuing _ v setAt =>
    let r := svc.issue inputs s v false
    some (r.1, match r.2 with
      | none => .refused
      | some session => .answered session setAt)
  | .answered _ _ | .refused => none

/-- One step of a request. -/
def advance : PasswordCall → Option (PasswordStore × PasswordCall)
  | .login req phase => (svc.login inputs s req phase).map fun r => (r.1, .login req r.2)
  | .logout req phase => (svc.logout inputs s req phase).map fun r => (r.1, .logout req r.2)
  | .changePassword req phase =>
    (svc.changePassword inputs s req phase).map fun r => (r.1, .changePassword req r.2)

/-- Any number of logins, logouts and password changes. -/
def system : System PasswordStore PasswordCall PasswordRequest PasswordInputs where
  start := PasswordRequest.call
  advance inputs s call := svc.advance inputs s call

end PasswordService

end SecureShare.Auth
