import SecureShare.Http.Audit
import SecureShare.Http.Request
import SecureShare.Library.Program
import SecureShare.PublicExperience

/-!
# What handlers call

The tables behind the server and the operations of a handler: the statements of the
repositories, and the answers that it obtains from the limiters, Vault, SMTP, the clock
and the random source.
-/
namespace SecureShare.Handlers
open Go Library Http
open Library.Interleaving (Reply)
open Auth (User UserWithPassword UserCreate UserColumns ThemePreference AuthStore Session
  APIClient APIClientWithSecret APIClientCreate APIClientStatus ClientTable)
open Delivery (UUID Bytes CreateRequest CreateInputs InsertParams ServiceError RevokeResult
  ProtectionUpdateResult PasswordFailureResult PrepareResponse ConsumeCandidate CleanupResult)

structure Store where
  auth : AuthStore
  clients : ClientTable
  links : Delivery.Table
  email : Option Email.StoredSettings
  publicExperience : Option PublicExperience.Settings
  audit : List AuditEvent

inductive Limiter where
  | login | create | emailSend | emailRetry | emailTest | prepare | consume
  deriving DecidableEq, Repr

/-- Queries whose rows only the answer shows, and the checks of the dependencies. -/
inductive Query where
  | listSessions (userID : UUID)
  | listUsers | listAPIClients | listLinks | dashboard | recentActivity | ping | vaultReady
  deriving DecidableEq, Repr

/-- An operation has the name of the function that it is the statement of. -/
inductive Op where
  | now
  | allow (limiter : Limiter) (key : Text)
  | query (q : Query)
  | sessionByHash (id : Text)
  | createSession (user : User)
  | revokeSession (tokenHash : Bytes)
  | revokeOtherSessions (userID : UUID) (currentHash : Bytes)
  | userForLogin (login : Text)
  | userByID (id : UUID)
  | createUser (params : UserCreate)
  | updateUser (id : UUID) (columns : UserColumns)
  | setPassword (id : UUID) (password : Text) (forceChange : Bool)
  | setThemePreference (id : UUID) (theme : ThemePreference)
  | touchLastLogin (id : UUID)
  | apiClientByClientID (clientID : Text)
  | touchAPIClient (id : UUID)
  | apiClientByID (id : UUID)
  | createAPIClient (params : APIClientCreate)
  | setAPIClientStatus (id : UUID) (status : APIClientStatus)
  | rotateAPIClientSecret (id : UUID) (clientID : Text)
  | insertParams (actorID : Text) (req : CreateRequest)
  | insert (params : InsertParams)
  | metadata (id : UUID)
  | revoke (id : UUID)
  | revokeStatus (id : UUID)
  | hashPassword (password : Text)
  | updatePasswordProtection (id : UUID) (passwordHash : Option Text)
  | cleanup
  | prepare (tokenHash : Bytes)
  | findConsumeCandidate (tokenHash : Bytes)
  | recordPasswordFailure (tokenHash : Bytes) (passwordHash : Text)
  | newLeaseID
  | beginConsume (tokenHash : Bytes) (passwordHash : Option Text) (leaseID : UUID)
  | vaultDecrypt (ciphertext : Text)
  | restoreConsume (id leaseID : UUID)
  | completeConsume (id leaseID : UUID)
  | vaultEncrypt (plaintext : Text)
  | getEmailSettings
  | saveEmailSettings (settings : Email.StoredSettings)
  | smtp
  | getPublicSettings
  | savePublicSettings (settings : PublicExperience.Settings)
  | recordAuditEvent (e : AuditEventRecord)
  deriving DecidableEq, Repr

/-- `none` where a query finds no row that is no error, or SMTP reports success. -/
@[reducible] def Op.Answer : Op → Type
  | .now => ℤ
  | .allow _ _ | .revoke _ | .completeConsume _ _ => Bool
  | .query _ | .revokeSession _ | .revokeOtherSessions _ _ | .setPassword _ _ _
  | .touchLastLogin _ | .touchAPIClient _ | .insert _ | .restoreConsume _ _
  | .recordAuditEvent _ => Unit
  | .sessionByHash _ | .createSession _ => Session
  | .userForLogin _ => Option UserWithPassword
  | .userByID _ | .createUser _ | .updateUser _ _ | .setThemePreference _ _ => User
  | .apiClientByClientID _ => APIClientWithSecret
  | .apiClientByID _ | .setAPIClientStatus _ _ => APIClient
  | .createAPIClient _ | .rotateAPIClientSecret _ _ => APIClient × Text
  | .insertParams _ _ => Except ServiceError (InsertParams × Text)
  | .metadata _ => Option Delivery.Row
  | .revokeStatus _ => RevokeResult
  | .hashPassword _ | .vaultDecrypt _ | .vaultEncrypt _ => Text
  | .updatePasswordProtection _ _ => ProtectionUpdateResult
  | .cleanup => CleanupResult
  | .prepare _ => PrepareResponse
  | .findConsumeCandidate _ | .beginConsume _ _ _ => Option ConsumeCandidate
  | .recordPasswordFailure _ _ => PasswordFailureResult
  | .newLeaseID => UUID
  | .getEmailSettings => Option Email.StoredSettings
  | .saveEmailSettings _ => Email.StoredSettings
  | .smtp => Option Email.Category
  | .getPublicSettings => Option PublicExperience.Settings
  | .savePublicSettings _ => PublicExperience.Settings

abbrev Prog := Program Op Op.Answer

def perform (op : Op) : Prog (Option op.Answer) := Program.perform op

/-- What an operation obtains from outside: the answer of the database, its clock and
the row it picks of several, the clock of the server, random values, and the other
systems. -/
structure Inputs where
  reply : Reply
  databaseNow : ℤ
  now : ℤ
  pick : ℕ
  allowed : Bool
  salt : Option ℕ
  nonce : Option ℕ
  vaultUp : Bool
  id : Option UUID
  idBytes : Option Bytes
  secretBytes : Option Bytes
  create : CreateInputs
  smtp : Option Email.Category
  deriving DecidableEq, Repr

/-- The rows after the statements of `Cleanup`, as one step, with their numbers. -/
def cleanup (cfg : Config) (now : ℤ) (s : Store) : Store × CleanupResult :=
  let expired := Delivery.Repository.cleanupStatement s.links now .expireActive
  let restored := Delivery.Repository.cleanupStatement expired.1 now
    (.restoreStale cfg.consumingLeaseTTL.int64Seconds)
  let blanked := Delivery.Repository.cleanupStatement restored.1 now
    (.blankRetained cfg.consumedRetention.int64Seconds cfg.expiredRetention.int64Seconds
      cfg.revokedRetention.int64Seconds)
  ({ s with
      links := blanked.1
      audit := s.audit.filter fun e =>
        now - Delivery.Row.interval cfg.auditRetention.int64Seconds < e.occurredAt },
    ⟨expired.2, blanked.2, restored.2⟩)

section
variable (srv : Server) (inputs : Inputs) (s : Store)

/-- A statement on the users and sessions. -/
def onAuth {α : Type} (r : Option (AuthStore × α)) : Store × Option α :=
  inputs.reply.apply s (r.map fun r => ({ s with auth := r.1 }, r.2))

def onUsers {α : Type} (r : Option (Auth.UserTable × α)) : Store × Option α :=
  onAuth inputs s (r.map fun r => ({ s.auth with users := r.1 }, r.2))

def onClients {α : Type} (r : Option (ClientTable × α)) : Store × Option α :=
  inputs.reply.apply s (r.map fun r => ({ s with clients := r.1 }, r.2))

def onLinks {α : Type} (r : Delivery.Table × α) : Store × Option α :=
  inputs.reply.apply s (some ({ s with links := r.1 }, r.2))

/-- A statement that only reads. -/
def reads {α : Type} (r : Option α) : Store × Option α :=
  inputs.reply.apply s (r.map fun a => (s, a))

/-- What an operation does and answers. -/
def act : (op : Op) → Store × Option op.Answer
  | .now => (s, some inputs.now)
  | .allow _ _ => (s, some inputs.allowed)
  | .query _ => reads inputs s (some ())
  | .sessionByHash id => onAuth inputs s (srv.manager.lookup inputs.now s.auth id)
  | .createSession user =>
    onAuth inputs s (srv.manager.issue inputs.databaseNow inputs.now s.auth inputs.idBytes inputs.id
      user)
  | .revokeSession tokenHash =>
    onAuth inputs s (Auth.Repository.revokeSession inputs.databaseNow s.auth tokenHash)
  | .revokeOtherSessions userID currentHash =>
    onAuth inputs s
      (Auth.Repository.revokeOtherSessions inputs.databaseNow s.auth userID currentHash)
  | .userForLogin login =>
    let rows := Auth.Repository.usersForLogin s.auth.users srv.fns login
    reads inputs s (some rows[inputs.pick % rows.length]?)
  | .userByID id => reads inputs s (Auth.Repository.userByID s.auth.users id)
  | .createUser params =>
    onUsers inputs s (Auth.Repository.createUser inputs.databaseNow s.auth.users srv.fns srv.deps
      inputs.salt inputs.id params)
  | .updateUser id columns =>
    onUsers inputs s (Auth.Repository.updateColumns inputs.databaseNow s.auth.users id columns)
  | .setPassword id password forceChange =>
    onUsers inputs s ((srv.deps.hashPassword inputs.salt password).bind fun hash =>
      Auth.Repository.setPassword inputs.databaseNow s.auth.users id hash forceChange)
  | .setThemePreference id theme =>
    onUsers inputs s (Auth.Repository.setThemePreference inputs.databaseNow s.auth.users id theme)
  | .touchLastLogin id =>
    onUsers inputs s (Auth.Repository.touchLastLogin inputs.databaseNow s.auth.users id)
  | .apiClientByClientID clientID =>
    reads inputs s (Auth.Repository.apiClientByClientID s.clients clientID)
  | .touchAPIClient id =>
    onClients inputs s (Auth.Repository.touchAPIClient inputs.databaseNow s.clients id)
  | .apiClientByID id => reads inputs s (Auth.Repository.apiClientByID s.clients id)
  | .createAPIClient params =>
    match Auth.normalizeScopes params.scopes, inputs.idBytes, inputs.secretBytes, inputs.id with
    | some scopes, some idBytes, some secretBytes, some id =>
      let clientID := Auth.newAPIClientID idBytes
      let secret := Auth.newAPIClientSecret secretBytes
      onClients inputs s ((Auth.Repository.createAPIClient inputs.databaseNow s.clients id
        { params with scopes } clientID (Auth.hashAPIClientSecret srv.hmac srv.cfg.tokenHMACPepper
          clientID secret)).map fun r => (r.1, r.2, secret))
    | _, _, _, _ => (s, none)
  | .setAPIClientStatus id status =>
    onClients inputs s
      (Auth.Repository.setAPIClientStatus inputs.databaseNow s.clients id status)
  | .rotateAPIClientSecret id clientID =>
    match inputs.secretBytes with
    | some secretBytes =>
      let secret := Auth.newAPIClientSecret secretBytes
      onClients inputs s ((Auth.Repository.rotateAPIClientSecret inputs.databaseNow s.clients id
        (Auth.hashAPIClientSecret srv.hmac srv.cfg.tokenHMACPepper clientID secret)).map fun r =>
          (r.1, r.2, secret))
    | none => (s, none)
  | .insertParams actorID req =>
    (s, some (Delivery.insertParams srv.deps srv.cfg inputs.create actorID req))
  | .insert params =>
    inputs.reply.apply s ((s.links.insert (params.row inputs.databaseNow)).map fun links =>
      ({ s with links }, ()))
  | .metadata id => reads inputs s (some (s.links.find id))
  | .revoke id => onLinks inputs s (Delivery.Repository.revokeUpdate s.links inputs.databaseNow id)
  | .revokeStatus id => reads inputs s (some (Delivery.Repository.revokeStatus s.links id))
  | .hashPassword password => (s, srv.deps.hashPassword inputs.salt password)
  | .updatePasswordProtection id passwordHash =>
    onLinks inputs s
      (Delivery.Repository.updatePasswordProtection s.links inputs.databaseNow id passwordHash)
  | .cleanup => inputs.reply.apply s (some (cleanup srv.cfg inputs.databaseNow s))
  | .prepare tokenHash =>
    reads inputs s (some (Delivery.Repository.prepare s.links inputs.databaseNow tokenHash))
  | .findConsumeCandidate tokenHash =>
    reads inputs s (some (Delivery.Repository.findConsumeCandidate s.links inputs.databaseNow
      tokenHash srv.cfg.consumingLeaseTTL))
  | .recordPasswordFailure tokenHash passwordHash =>
    onLinks inputs s (Delivery.Repository.recordPasswordFailure s.links inputs.databaseNow tokenHash
      passwordHash srv.cfg.consumingLeaseTTL)
  | .newLeaseID => (s, inputs.id)
  | .beginConsume tokenHash passwordHash leaseID =>
    onLinks inputs s (Delivery.Repository.beginConsume s.links inputs.databaseNow tokenHash
      passwordHash leaseID srv.cfg.consumingLeaseTTL)
  | .vaultDecrypt ciphertext =>
    (s, if inputs.vaultUp then srv.deps.decrypt ciphertext else none)
  | .restoreConsume id leaseID =>
    onLinks inputs s (Delivery.Repository.restoreConsume s.links inputs.databaseNow id leaseID, ())
  | .completeConsume id leaseID =>
    onLinks inputs s (Delivery.Repository.completeConsume s.links inputs.databaseNow id leaseID)
  | .vaultEncrypt plaintext => (s, srv.deps.vaultEncrypt inputs.nonce plaintext)
  | .getEmailSettings => reads inputs s (some s.email)
  | .saveEmailSettings settings =>
    let saved := { settings with toSettings := Email.normalizeSettings settings.toSettings }
    inputs.reply.apply s (some ({ s with email := some saved }, saved))
  | .smtp => (s, some inputs.smtp)
  | .getPublicSettings => reads inputs s (some s.publicExperience)
  | .savePublicSettings settings =>
    inputs.reply.apply s (some ({ s with publicExperience := some settings }, settings))
  | .recordAuditEvent e =>
    inputs.reply.apply s ((recordAuditEvent inputs.databaseNow s.links s.audit e).map fun r =>
      ({ s with audit := r.1 }, r.2))

end

end SecureShare.Handlers
