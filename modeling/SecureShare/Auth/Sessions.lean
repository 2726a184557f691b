import SecureShare.Auth.Users
import SecureShare.Go.Base64
import SecureShare.Go.Duration

/-!
# Sessions

The table `user_sessions`, the statements on it, and the session manager that signs
cookies and looks them up. A cookie is a random ID and its signature; the table
holds a hash of the ID.
-/
namespace SecureShare.Auth
open Go Library
open Delivery (UUID Bytes)

/-- Times of the database, in microseconds. -/
structure SessionRow where
  id : UUID
  userID : UUID
  tokenHash : Bytes
  expiresAt : ℤ
  lastSeenAt : ℤ
  createdAt : ℤ
  revokedAt : Option ℤ
  deriving DecidableEq, Repr

/-- The constraints of `user_sessions` but for the reference to the user. -/
def userSessions : Schema SessionRow where
  Check r := r.tokenHash.length = 32
  Clash r r' := r.id = r'.id ∨ r.tokenHash = r'.tokenHash
  symm h := h.imp Eq.symm Eq.symm
  decidableCheck _ := inferInstanceAs (Decidable (_ = _))
  decidableClash _ _ := inferInstanceAs (Decidable (_ ∨ _))

abbrev SessionTable := Table userSessions

theorem isKey_sessionID : userSessions.IsKey (·.id) := .inl

theorem isKey_sessionHash : userSessions.IsKey (·.tokenHash) := .inr

/-- The tables of users and of their sessions. -/
structure AuthStore where
  users : UserTable
  sessions : SessionTable

/-- A time of Go as the database stores it. -/
def timestamp (t : ℤ) : ℤ := t / 1000

/-- What the store tells about a session that it accepts. -/
structure AcceptedSession where
  user : User
  sessionID : UUID
  expiresAt : ℤ
  lastSeenAt : ℤ
  deriving DecidableEq, Repr

/-- The seconds that `SessionByHash` compares with. -/
def idleSeconds (idleTimeout : Duration) : ℤ :=
  if idleTimeout.int64Seconds ≤ 0 then 24 * 3600 * 365 else idleTimeout.int64Seconds

namespace Repository
variable (databaseNow : ℤ) (s : AuthStore)

/-- `CreateSession` at a time of Go. The user must exist. -/
def createSession (id userID : UUID) (tokenHash : Bytes) (expiresAt now : ℤ) :
    Option (AuthStore × UUID) :=
  if (s.users.find (·.id) userID).isNone then none
  else
    (s.sessions.insert
      { id, userID, tokenHash
        expiresAt := timestamp expiresAt
        lastSeenAt := timestamp now
        createdAt := databaseNow
        revokedAt := none }).map fun sessions => ({ s with sessions }, id)

/-- The condition of `SessionByHash` at a time of Go. -/
def sessionMatches (tokenHash : Bytes) (now : ℤ) (idleTimeout : Duration) (r : SessionRow) : Bool :=
  r.tokenHash = tokenHash && r.revokedAt.isNone && timestamp now < r.expiresAt &&
    timestamp now - Delivery.Row.interval (idleSeconds idleTimeout) < r.lastSeenAt &&
    (s.users.find (·.id) r.userID).any fun user => user.status = .active

/-- The UPDATE of `SessionByHash` returns the row that it touches and its user. -/
def sessionByHash (tokenHash : Bytes) (now : ℤ) (idleTimeout : Duration) :
    Option (AuthStore × AcceptedSession) :=
  let p := sessionMatches s tokenHash now idleTimeout
  let touch : SessionRow → SessionRow := fun r => { r with lastSeenAt := timestamp now }
  (s.sessions.update p touch).bind fun sessions =>
    (s.sessions.returning p touch).head?.bind fun r =>
      (s.users.find (·.id) r.userID).map fun user =>
        ({ s with sessions }, ⟨user.toUser, r.id, r.expiresAt, r.lastSeenAt⟩)

/-- An UPDATE that revokes the open sessions that match. -/
def revokeSessions (p : SessionRow → Bool) : Option (AuthStore × Unit) :=
  (s.sessions.update (fun r => p r && r.revokedAt.isNone) fun r =>
    { r with revokedAt := some databaseNow }).map fun sessions => ({ s with sessions }, ())

def revokeSession (tokenHash : Bytes) : Option (AuthStore × Unit) :=
  revokeSessions databaseNow s fun r => r.tokenHash = tokenHash

def revokeOtherSessions (userID : UUID) (currentHash : Bytes) : Option (AuthStore × Unit) :=
  revokeSessions databaseNow s fun r => r.userID = userID && r.tokenHash ≠ currentHash

end Repository

structure Session where
  id : Text
  sessionID : UUID
  userID : UUID
  actorID : Text
  username : Text
  email : Text
  role : Role
  themePreference : ThemePreference
  permissions : List Text
  expiresAt : ℤ
  lastSeenAt : ℤ
  deriving DecidableEq, Repr

/-- The settings of the manager and HMAC-SHA-256. -/
structure SessionManager where
  hmac : Text → Text → Bytes
  secret : Text
  csrfSecret : Text
  ttl : Duration
  idleTimeout : Duration

namespace SessionManager
variable (m : SessionManager)

def sign (id : Text) : Text := id ++ ".".toList ++ rawURLEncode (m.hmac m.secret id)

/-- `strings.Cut(value, ".")` -/
def cutDot (value : Text) : Option (Text × Text) :=
  if '.' ∈ value then
    some (value.takeWhile (· ≠ '.'), (value.dropWhile (· ≠ '.')).tail)
  else none

def unsign (value : Text) : Option Text :=
  match cutDot value with
  | none => none
  | some (id, sig) =>
    if id = [] ∨ sig = [] then none else if value = m.sign id then some id else none

def tokenHash (id : Text) : Bytes := m.hmac m.secret ("session-token:".toList ++ id)

def csrfToken (session : Session) : Text := rawURLEncode (m.hmac m.csrfSecret session.id)

/-- `ValidCSRF` -/
def validCSRF (session : Session) (token : Text) : Bool :=
  token ≠ [] && token = m.csrfToken session

def sessionOf (id : Text) (a : AcceptedSession) : Session where
  id := id
  sessionID := a.sessionID
  userID := a.user.id
  actorID := a.user.username
  username := a.user.username
  email := a.user.email
  role := a.user.role
  themePreference := a.user.themePreference
  permissions := permissionsForRole a.user.role
  expiresAt := a.expiresAt
  lastSeenAt := a.lastSeenAt

/-- The statement of `FromRequest` for the ID of a cookie. -/
def lookup (now : ℤ) (s : AuthStore) (id : Text) : Option (AuthStore × Session) :=
  (Repository.sessionByHash s (m.tokenHash id) now m.idleTimeout).map fun r =>
    (r.1, sessionOf id r.2)

/-- The statement of `CreateForUser`; no bytes or ID means that the random source failed. -/
def issue (databaseNow now : ℤ) (s : AuthStore) (idBytes : Option Bytes) (sessionID : Option UUID)
    (user : User) : Option (AuthStore × Session) :=
  match idBytes, sessionID with
  | some idBytes, some sessionID =>
    let id := rawURLEncode idBytes
    let expiresAt := now + m.ttl.toInt
    (Repository.createSession databaseNow s sessionID user.id (m.tokenHash id) expiresAt now).map
      fun r => (r.1, sessionOf id ⟨user, r.2, expiresAt, now⟩)
  | _, _ => none

/-- A cookie that is accepted is the signed ID. -/
theorem sign_of_unsign {value id : Text} (h : m.unsign value = some id) : value = m.sign id := by
  unfold unsign at h
  split at h
  · cases h
  · split_ifs at h with _ hsign
    cases h
    exact hsign

end SessionManager

end SecureShare.Auth
