import SecureShare.Auth.Clients
import SecureShare.Auth.Sessions
import SecureShare.Go.Map
import Mathlib.Data.Char
import Mathlib.Data.List.Lex

/-!
# The store in memory

`MemoryStore` keeps users, sessions and API clients in three maps, with the times of Go.
A failed operation leaves them as they are.
-/
namespace SecureShare.Auth
open Go
open Delivery (UUID Bytes Dependencies)

/-- A client as Go has it, with an unchecked status and times of Go. -/
structure ClientRecord where
  id : UUID
  name : Text
  clientID : Text
  ownerUserID : Option UUID
  status : Text
  scopes : List Text
  lastUsedAt : Option ℤ
  expiresAt : Option ℤ
  createdAt : ℤ
  updatedAt : ℤ
  deriving DecidableEq, Repr

structure ClientRecordWithSecret extends ClientRecord where
  secretHash : Text
  deriving DecidableEq, Repr

structure SessionInfo where
  id : UUID
  userID : UUID
  expiresAt : ℤ
  lastSeenAt : ℤ
  createdAt : ℤ
  revokedAt : Option ℤ
  current : Bool
  deriving DecidableEq, Repr

/-- What the two stores call: password hashing, case functions, `strings.EqualFold`, and
whether a name is not behind another in the collation of the database. -/
structure StoreFunctions where
  case : CaseFunctions
  deps : Dependencies
  equalFold : Text → Text → Bool
  collate : Text → Text → Bool

/-- What an operation obtains from outside: the clock, in microseconds, a random ID and
salt, and the orders in which Go visits its maps and the database its tables. -/
structure StoreInputs where
  now : ℤ
  id : Option UUID
  salt : Option ℕ
  iteration : Iteration
  scan : Iteration

/-- The instant that such a clock shows. -/
def instant (now : ℤ) : ℤ := 1000 * now

/-- The name of a theme, a role or a status is what is stored of it. -/
def ThemePreference.text : ThemePreference → Text
  | .system => "system".toList
  | .light => "light".toList
  | .dark => "dark".toList

/-- `ValidThemePreference` -/
def validThemePreference (theme : Text) : Option ThemePreference :=
  if theme = "system".toList then some .system
  else if theme = "light".toList then some .light
  else if theme = "dark".toList then some .dark
  else none

def APIClientStatus.text : APIClientStatus → Text
  | .active => "active".toList
  | .disabled => "disabled".toList
  | .revoked => "revoked".toList

/-- The values of the three maps. The key of a session is its hash. -/
structure MemoryStore where
  users : List UserWithPassword
  sessions : List SessionRow
  clients : List ClientRecordWithSecret
  deriving DecidableEq, Repr

/-- `time.Time.Sub`, which saturates. -/
def timeSub (t u : ℤ) : ℤ := max (-2 ^ 63) (min (2 ^ 63 - 1) (t - u))

def sessionInfo (currentHash : Bytes) (session : SessionRow) : SessionInfo where
  id := session.id
  userID := session.userID
  expiresAt := session.expiresAt
  lastSeenAt := session.lastSeenAt
  createdAt := session.createdAt
  revokedAt := session.revokedAt
  current := session.tokenHash = currentHash

namespace MemoryStore
variable (fns : StoreFunctions) (inputs : StoreInputs) (m : MemoryStore)

def createUser (params : UserCreate) : Option (MemoryStore × User) :=
  let params := normalizeUserCreate fns.case params
  match validateUserCreate params false, fns.deps.hashPassword inputs.salt params.password,
      inputs.id with
  | some (role, status), some hash, some id =>
    let user : UserWithPassword :=
      { id, role, status
        username := params.username
        email := params.email
        forcePasswordChange := params.forcePasswordChange
        themePreference := .system
        lastLoginAt := none
        passwordChangedAt := some (instant inputs.now)
        createdAt := instant inputs.now
        updatedAt := instant inputs.now
        passwordHash := hash }
    if m.users.any fun existing => fns.equalFold existing.username user.username ||
        fns.equalFold existing.email user.email then none
    else some ({ m with users := assign (·.id) user m.users }, user.toUser)
  | _, _, _ => none

def userForLogin (login : Text) : Option UserWithPassword :=
  let login := normalizeLogin fns.case login
  (inputs.iteration.order m.users).find? fun user =>
    normalizeLogin fns.case user.username = login || normalizeLogin fns.case user.email = login

def userByID (id : UUID) : Option User :=
  (m.users.find? (·.id = id)).map UserWithPassword.toUser

def listUsers : List User :=
  ((inputs.iteration.order m.users).map UserWithPassword.toUser).mergeSort fun user user' =>
    user.username ≤ user'.username

/-- The record of a user, as `f` changes it, is put back. -/
def updateRecord (id : UUID) (f : UserWithPassword → UserWithPassword) :
    Option (MemoryStore × UserWithPassword) :=
  (m.users.find? (·.id = id)).map fun record =>
    let record := { f record with updatedAt := instant inputs.now }
    ({ m with users := assign (·.id) record m.users }, record)

def updateUser (id : UUID) (patch : UserPatch) : Option (MemoryStore × User) :=
  (m.userByID id).bind fun current =>
    (patch.columns fns.case current).bind fun columns =>
      (m.updateRecord inputs id columns.write).map fun r => (r.1, r.2.toUser)

def setUserStatus (id : UUID) (status : Text) : Option (MemoryStore × User) :=
  m.updateUser fns inputs id ⟨none, none, none, some status, none⟩

def setPassword (id : UUID) (password : Text) (forceChange : Bool) : Option MemoryStore :=
  (fns.deps.hashPassword inputs.salt password).bind fun hash =>
    (m.updateRecord inputs id fun record => { record with
      passwordHash := hash
      passwordChangedAt := some (instant inputs.now)
      forcePasswordChange := forceChange }).map Prod.fst

def setThemePreference (id : UUID) (theme : Text) : Option (MemoryStore × User) :=
  (validThemePreference theme).bind fun theme =>
    (m.updateRecord inputs id fun record => { record with themePreference := theme }).map fun r =>
      (r.1, r.2.toUser)

def touchLastLogin (id : UUID) : Option MemoryStore :=
  (m.updateRecord inputs id fun record => { record with
    lastLoginAt := some (instant inputs.now) }).map Prod.fst

def createSession (userID : UUID) (tokenHash : Bytes) (expiresAt now : ℤ) :
    Option (MemoryStore × UUID) :=
  inputs.id.map fun id =>
    let session : SessionRow :=
      { id, userID, tokenHash, expiresAt
        lastSeenAt := now
        createdAt := now
        revokedAt := none }
    ({ m with sessions := assign (·.tokenHash) session m.sessions }, id)

/-- The instants of a session are such that `SessionByHash` accepts it. -/
def sessionInTime (now : ℤ) (idleTimeout : Duration) (session : SessionRow) : Bool :=
  !(session.expiresAt < now ||
    (0 < idleTimeout.toInt && idleTimeout.toInt < timeSub now session.lastSeenAt))

def sessionByHash (tokenHash : Bytes) (now : ℤ) (idleTimeout : Duration) :
    Option (MemoryStore × AcceptedSession) :=
  (m.sessions.find? (·.tokenHash = tokenHash)).bind fun session =>
    if session.revokedAt.isSome || !sessionInTime now idleTimeout session then none
    else
      (m.users.find? (·.id = session.userID)).bind fun record =>
        if record.status ≠ .active then none
        else
          let session := { session with lastSeenAt := now }
          some ({ m with sessions := assign (·.tokenHash) session m.sessions },
            ⟨record.toUser, session.id, session.expiresAt, session.lastSeenAt⟩)

def revokeSession (tokenHash : Bytes) : MemoryStore :=
  match m.sessions.find? (·.tokenHash = tokenHash) with
  | none => m
  | some session =>
    if session.revokedAt.isSome then m
    else
      let session := { session with revokedAt := some (instant inputs.now) }
      { m with sessions := assign (·.tokenHash) session m.sessions }

/-- The loop writes under keys that it has visited. -/
def revokeOtherSessions (userID : UUID) (currentHash : Bytes) : MemoryStore :=
  { m with
    sessions := m.sessions.map fun session =>
      if session.userID = userID ∧ session.tokenHash ≠ currentHash ∧ session.revokedAt = none then
        { session with revokedAt := some (instant inputs.now) }
      else session }

def listSessions (userID : UUID) (currentHash : Bytes) : List SessionInfo :=
  ((inputs.iteration.order m.sessions).filter (·.userID = userID)).map (sessionInfo currentHash)

def createAPIClient (params : APIClientCreate) (clientID secretHash : Text) :
    Option (MemoryStore × ClientRecord) :=
  let name := trimSpace params.name
  if name = [] then none
  else
    inputs.id.map fun id =>
      let client : ClientRecordWithSecret :=
        { id, name, clientID, secretHash
          ownerUserID := params.ownerUserID
          status := APIClientStatus.active.text
          scopes := params.scopes
          lastUsedAt := none
          expiresAt := params.expiresAt
          createdAt := instant inputs.now
          updatedAt := instant inputs.now }
      ({ m with clients := assign (·.id) client m.clients }, client.toClientRecord)

def listAPIClients : List ClientRecord :=
  (inputs.iteration.order m.clients).map ClientRecordWithSecret.toClientRecord

def apiClientByID (id : UUID) : Option ClientRecord :=
  (m.clients.find? (·.id = id)).map ClientRecordWithSecret.toClientRecord

def apiClientByClientID (clientID : Text) : Option ClientRecordWithSecret :=
  (inputs.iteration.order m.clients).find? (·.clientID = clientID)

/-- The record of a client, as `f` changes it, is put back. -/
def updateClient (id : UUID) (f : ClientRecordWithSecret → ClientRecordWithSecret) :
    Option (MemoryStore × ClientRecord) :=
  (m.clients.find? (·.id = id)).map fun client =>
    let client := { f client with updatedAt := instant inputs.now }
    ({ m with clients := assign (·.id) client m.clients }, client.toClientRecord)

def setAPIClientStatus (id : UUID) (status : Text) : Option (MemoryStore × ClientRecord) :=
  m.updateClient inputs id fun client => { client with status := status }

def rotateAPIClientSecret (id : UUID) (secretHash : Text) : Option (MemoryStore × ClientRecord) :=
  m.updateClient inputs id fun client => { client with
    secretHash := secretHash
    status := APIClientStatus.active.text }

def touchAPIClient (id : UUID) : Option MemoryStore :=
  (m.updateClient inputs id fun client => { client with
    lastUsedAt := some (instant inputs.now) }).map Prod.fst

end MemoryStore

end SecureShare.Auth
