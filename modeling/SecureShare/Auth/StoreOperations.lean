import SecureShare.Auth.MemoryStore

/-!
# The two stores

`MemoryStore` and `Repository` as two implementations of one set of operations. What the
tables hold is a state of `MemoryStore`; an operation that meets a condition on the
tables and its arguments has the same answer from both, and leaves that state.
-/
namespace SecureShare.Auth
open Go Library Library.Transition
open Delivery (UUID Bytes Dependencies storable)

/-- The operations of `UserStore` and `APIClientStore`. -/
inductive StoreOp where
  | countUsers
  | createUser (params : UserCreate)
  | userForLogin (login : Text)
  | userByID (id : UUID)
  | listUsers
  | updateUser (id : UUID) (patch : UserPatch)
  | setUserStatus (id : UUID) (status : Text)
  | setPassword (id : UUID) (password : Text) (forceChange : Bool)
  | setThemePreference (id : UUID) (theme : Text)
  | touchLastLogin (id : UUID)
  | createSession (userID : UUID) (tokenHash : Bytes) (expiresAt now : ℤ)
  | sessionByHash (tokenHash : Bytes) (now : ℤ) (idleTimeout : Duration)
  | revokeSession (tokenHash : Bytes)
  | revokeOtherSessions (userID : UUID) (currentHash : Bytes)
  | listSessions (userID : UUID) (currentHash : Bytes)
  | createAPIClient (params : APIClientCreate) (clientID secretHash : Text)
  | listAPIClients
  | apiClientByID (id : UUID)
  | apiClientByClientID (clientID : Text)
  | setAPIClientStatus (id : UUID) (status : Text)
  | rotateAPIClientSecret (id : UUID) (secretHash : Text)
  | touchAPIClient (id : UUID)
  deriving DecidableEq, Repr

inductive StoreAnswer where
  | done
  | count (n : ℕ)
  | user (user : User)
  | userWithPassword (user : UserWithPassword)
  | users (users : List User)
  | sessionID (id : UUID)
  | session (accepted : AcceptedSession)
  | sessions (sessions : List SessionInfo)
  | client (client : ClientRecord)
  | clientWithSecret (client : ClientRecordWithSecret)
  | clients (clients : List ClientRecord)
  deriving DecidableEq, Repr

/-- An operation of `MemoryStore`; no result is an error. -/
def MemoryStore.exec (fns : StoreFunctions) (inputs : StoreInputs) (m : MemoryStore) :
    StoreOp → Option (MemoryStore × StoreAnswer)
  | .countUsers => some (m, .count m.users.length)
  | .createUser params => (m.createUser fns inputs params).map fun r => (r.1, .user r.2)
  | .userForLogin login => (m.userForLogin fns inputs login).map fun r => (m, .userWithPassword r)
  | .userByID id => (m.userByID id).map fun r => (m, .user r)
  | .listUsers => some (m, .users (m.listUsers inputs))
  | .updateUser id patch => (m.updateUser fns inputs id patch).map fun r => (r.1, .user r.2)
  | .setUserStatus id status => (m.setUserStatus fns inputs id status).map fun r => (r.1, .user r.2)
  | .setPassword id password forceChange =>
    (m.setPassword fns inputs id password forceChange).map fun m => (m, .done)
  | .setThemePreference id theme =>
    (m.setThemePreference inputs id theme).map fun r => (r.1, .user r.2)
  | .touchLastLogin id => (m.touchLastLogin inputs id).map fun m => (m, .done)
  | .createSession userID tokenHash expiresAt now =>
    (m.createSession inputs userID tokenHash expiresAt now).map fun r => (r.1, .sessionID r.2)
  | .sessionByHash tokenHash now idleTimeout =>
    (m.sessionByHash tokenHash now idleTimeout).map fun r => (r.1, .session r.2)
  | .revokeSession tokenHash => some (m.revokeSession inputs tokenHash, .done)
  | .revokeOtherSessions userID currentHash =>
    some (m.revokeOtherSessions inputs userID currentHash, .done)
  | .listSessions userID currentHash =>
    some (m, .sessions (m.listSessions inputs userID currentHash))
  | .createAPIClient params clientID secretHash =>
    (m.createAPIClient inputs params clientID secretHash).map fun r => (r.1, .client r.2)
  | .listAPIClients => some (m, .clients (m.listAPIClients inputs))
  | .apiClientByID id => (m.apiClientByID id).map fun r => (m, .client r)
  | .apiClientByClientID clientID =>
    (m.apiClientByClientID inputs clientID).map fun r => (m, .clientWithSecret r)
  | .setAPIClientStatus id status =>
    (m.setAPIClientStatus inputs id status).map fun r => (r.1, .client r.2)
  | .rotateAPIClientSecret id secretHash =>
    (m.rotateAPIClientSecret inputs id secretHash).map fun r => (r.1, .client r.2)
  | .touchAPIClient id => (m.touchAPIClient inputs id).map fun m => (m, .done)

/-- The tables `users`, `user_sessions` and `api_clients`. -/
structure Database where
  auth : AuthStore
  clients : ClientTable

def Database.empty : Database := ⟨⟨.empty, .empty⟩, .empty⟩

/-- A user as it is scanned. -/
def User.scanned (user : User) : User :=
  { user with
    lastLoginAt := user.lastLoginAt.map instant
    passwordChangedAt := user.passwordChangedAt.map instant
    createdAt := instant user.createdAt
    updatedAt := instant user.updatedAt }

def UserWithPassword.scanned (user : UserWithPassword) : UserWithPassword :=
  { user with toUser := user.toUser.scanned }

def SessionRow.scanned (session : SessionRow) : SessionRow :=
  { session with
    expiresAt := instant session.expiresAt
    lastSeenAt := instant session.lastSeenAt
    createdAt := instant session.createdAt
    revokedAt := session.revokedAt.map instant }

def AcceptedSession.scanned (a : AcceptedSession) : AcceptedSession :=
  { a with
    user := a.user.scanned
    expiresAt := instant a.expiresAt
    lastSeenAt := instant a.lastSeenAt }

def APIClient.scanned (client : APIClient) : ClientRecord where
  id := client.id
  name := client.name
  clientID := client.clientID
  ownerUserID := client.ownerUserID
  status := client.status.text
  scopes := client.scopes
  lastUsedAt := client.lastUsedAt.map instant
  expiresAt := client.expiresAt.map instant
  createdAt := instant client.createdAt
  updatedAt := instant client.updatedAt

def APIClientWithSecret.scanned (client : APIClientWithSecret) : ClientRecordWithSecret :=
  { toClientRecord := client.toAPIClient.scanned, secretHash := client.secretHash }

/-- The state of `MemoryStore` that the tables hold. -/
def Database.scanned (d : Database) : MemoryStore where
  users := d.auth.users.rows.map UserWithPassword.scanned
  sessions := d.auth.sessions.rows.map SessionRow.scanned
  clients := d.clients.rows.map APIClientWithSecret.scanned

/-- `ORDER BY created_at DESC, username ASC` -/
def listedBefore (fns : StoreFunctions) (r r' : UserWithPassword) : Bool :=
  r'.createdAt < r.createdAt || (r.createdAt = r'.createdAt && fns.collate r.username r'.username)

def validClientStatus (status : Text) : Option APIClientStatus :=
  if status = "active".toList then some .active
  else if status = "disabled".toList then some .disabled
  else if status = "revoked".toList then some .revoked
  else none

namespace Database
variable (fns : StoreFunctions) (inputs : StoreInputs) (d : Database)

/-- A statement on the users. -/
def onUsers {α : Type} (r : Option (UserTable × α)) : Option (Database × α) :=
  r.map fun r => ({ d with auth := { d.auth with users := r.1 } }, r.2)

def onAuth {α : Type} (r : Option (AuthStore × α)) : Option (Database × α) :=
  r.map fun r => ({ d with auth := r.1 }, r.2)

def onClients {α : Type} (r : Option (ClientTable × α)) : Option (Database × α) :=
  r.map fun r => ({ d with clients := r.1 }, r.2)

/-- The first of the rows that match. -/
def userForLogin (login : Text) : Option UserWithPassword :=
  (inputs.scan.order d.auth.users.rows).find? fun r =>
    fns.case.sqlLower r.username = normalizeLogin fns.case login ||
      fns.case.sqlLower r.email = normalizeLogin fns.case login

def listUsers : List User :=
  ((inputs.scan.order d.auth.users.rows).mergeSort (listedBefore fns)).map fun r => r.toUser.scanned

def updateUser (id : UUID) (patch : UserPatch) : Option (Database × User) :=
  (Repository.userByID d.auth.users id).bind fun current =>
    (patch.columns fns.case current).bind fun columns =>
      d.onUsers (Repository.updateColumns inputs.now d.auth.users id columns)

/-- `ORDER BY created_at DESC` -/
def listSessions (userID : UUID) (currentHash : Bytes) : List SessionInfo :=
  (((inputs.scan.order d.auth.sessions.rows).filter (·.userID = userID)).mergeSort fun r r' =>
    r'.createdAt ≤ r.createdAt).map fun r => sessionInfo currentHash r.scanned

/-- The owner must exist. -/
def createAPIClient (params : APIClientCreate) (clientID secretHash : Text) :
    Option (Database × APIClient) :=
  inputs.id.bind fun id =>
    if params.ownerUserID.any fun owner => (d.auth.users.find (·.id) owner).isNone then none
    else d.onClients (Repository.createAPIClient inputs.now d.clients id params clientID secretHash)

def listAPIClients : List ClientRecord :=
  ((inputs.scan.order d.clients.rows).mergeSort fun r r' => r'.createdAt ≤ r.createdAt).map
    fun r => r.toAPIClient.scanned

/-- An operation of `Repository`; no result is an error. -/
def exec : StoreOp → Option (Database × StoreAnswer)
  | .countUsers => some (d, .count d.auth.users.rows.length)
  | .createUser params =>
    (d.onUsers (Repository.createUser inputs.now d.auth.users fns.case fns.deps inputs.salt inputs.id
      params)).map fun r => (r.1, .user r.2.scanned)
  | .userForLogin login =>
    (d.userForLogin fns inputs login).map fun r => (d, .userWithPassword r.scanned)
  | .userByID id => (Repository.userByID d.auth.users id).map fun r => (d, .user r.scanned)
  | .listUsers => some (d, .users (d.listUsers fns inputs))
  | .updateUser id patch =>
    (d.updateUser fns inputs id patch).map fun r => (r.1, .user r.2.scanned)
  | .setUserStatus id status =>
    (d.updateUser fns inputs id ⟨none, none, none, some status, none⟩).map fun r =>
      (r.1, .user r.2.scanned)
  | .setPassword id password forceChange =>
    (fns.deps.hashPassword inputs.salt password).bind fun hash =>
      (d.onUsers (Repository.setPassword inputs.now d.auth.users id hash forceChange)).map fun r =>
        (r.1, .done)
  | .setThemePreference id theme =>
    (validThemePreference theme).bind fun theme =>
      (d.onUsers (Repository.setThemePreference inputs.now d.auth.users id theme)).map fun r =>
        (r.1, .user r.2.scanned)
  | .touchLastLogin id =>
    (d.onUsers (Repository.touchLastLogin inputs.now d.auth.users id)).map fun r => (r.1, .done)
  | .createSession userID tokenHash expiresAt now =>
    inputs.id.bind fun id =>
      (d.onAuth (Repository.createSession inputs.now d.auth id userID tokenHash expiresAt now)).map
        fun r => (r.1, .sessionID r.2)
  | .sessionByHash tokenHash now idleTimeout =>
    (d.onAuth (Repository.sessionByHash d.auth tokenHash now idleTimeout)).map fun r =>
      (r.1, .session r.2.scanned)
  | .revokeSession tokenHash =>
    (d.onAuth (Repository.revokeSession inputs.now d.auth tokenHash)).map fun r => (r.1, .done)
  | .revokeOtherSessions userID currentHash =>
    (d.onAuth (Repository.revokeOtherSessions inputs.now d.auth userID currentHash)).map fun r =>
      (r.1, .done)
  | .listSessions userID currentHash =>
    some (d, .sessions (d.listSessions inputs userID currentHash))
  | .createAPIClient params clientID secretHash =>
    (d.createAPIClient inputs params clientID secretHash).map fun r => (r.1, .client r.2.scanned)
  | .listAPIClients => some (d, .clients (d.listAPIClients inputs))
  | .apiClientByID id => (Repository.apiClientByID d.clients id).map fun r => (d, .client r.scanned)
  | .apiClientByClientID clientID =>
    (Repository.apiClientByClientID d.clients clientID).map fun r =>
      (d, .clientWithSecret r.scanned)
  | .setAPIClientStatus id status =>
    (validClientStatus status).bind fun status =>
      (d.onClients (Repository.setAPIClientStatus inputs.now d.clients id status)).map fun r =>
        (r.1, .client r.2.scanned)
  | .rotateAPIClientSecret id secretHash =>
    (d.onClients (Repository.rotateAPIClientSecret inputs.now d.clients id secretHash)).map fun r =>
      (r.1, .client r.2.scanned)
  | .touchAPIClient id =>
    (d.onClients (Repository.touchAPIClient inputs.now d.clients id)).map fun r => (r.1, .done)

end Database

/-- What makes the two stores do the same: the constraints of the tables hold exactly
where `MemoryStore` finds none violated, what is written is there, instants are those of
the clock of the database, and both see users in the same order. -/
def StoresAgree (fns : StoreFunctions) (inputs : StoreInputs) (d : Database) : StoreOp → Prop
  | .createUser params =>
    let params := normalizeUserCreate fns.case params
    (validateUserCreate params false).isSome →
      ∀ hash ∈ fns.deps.hashPassword inputs.salt params.password, ∀ id ∈ inputs.id,
        ((∃ r ∈ d.auth.users.rows, fns.equalFold r.username params.username ∨
            fns.equalFold r.email params.email) ↔
          ¬(storable 100 params.username ∧ storable 255 params.email ∧ '\u0000' ∉ hash) ∨
          ∃ r ∈ d.auth.users.rows, r.id = id ∨ r.username = params.username ∨
            r.email = params.email)
  | .userForLogin login =>
    (∀ r ∈ d.auth.users.rows,
      (normalizeLogin fns.case r.username = normalizeLogin fns.case login ∨
          normalizeLogin fns.case r.email = normalizeLogin fns.case login ↔
        fns.case.sqlLower r.username = normalizeLogin fns.case login ∨
          fns.case.sqlLower r.email = normalizeLogin fns.case login)) ∧
      ((Repository.usersForLogin d.auth.users fns.case login).length ≤ 1 ∨
        inputs.iteration.order d.auth.users.rows = inputs.scan.order d.auth.users.rows)
  | .listUsers =>
    ∀ r ∈ d.auth.users.rows, ∀ r' ∈ d.auth.users.rows,
      (listedBefore fns r r' ↔ r.username ≤ r'.username)
  | .updateUser id patch =>
    ∀ r ∈ d.auth.users.find (·.id) id, ∀ c ∈ patch.columns fns.case r.toUser,
      storable 100 c.username ∧ storable 255 c.email ∧
        ∀ r' ∈ d.auth.users.rows, r'.id ≠ id → r'.username ≠ c.username ∧ r'.email ≠ c.email
  | .setPassword id password _ =>
    ∀ hash ∈ fns.deps.hashPassword inputs.salt password,
      '\u0000' ∉ hash ∧ (d.auth.users.find (·.id) id).isSome
  | .touchLastLogin id => (d.auth.users.find (·.id) id).isSome
  | .createSession userID tokenHash expiresAt now =>
    ∀ id ∈ inputs.id, (d.auth.users.find (·.id) userID).isSome ∧ tokenHash.length = 32 ∧
      (∀ r ∈ d.auth.sessions.rows, r.id ≠ id ∧ r.tokenHash ≠ tokenHash) ∧
      1000 ∣ expiresAt ∧ now = instant inputs.now
  | .sessionByHash tokenHash now idleTimeout =>
    ∀ r ∈ d.auth.sessions.find (·.tokenHash) tokenHash, r.revokedAt = none →
      ((d.auth.users.find (·.id) r.userID).any fun user => user.status = .active) →
        (MemoryStore.sessionInTime now idleTimeout r.scanned ↔ timestamp now < r.expiresAt ∧
          timestamp now - Delivery.Row.interval (idleSeconds idleTimeout) < r.lastSeenAt) ∧
        (MemoryStore.sessionInTime now idleTimeout r.scanned → 1000 ∣ now)
  | .listSessions userID _ =>
    (inputs.iteration.order d.auth.sessions.rows).filter (·.userID = userID) =
      ((inputs.scan.order d.auth.sessions.rows).filter (·.userID = userID)).mergeSort fun r r' =>
        r'.createdAt ≤ r.createdAt
  | .createAPIClient params clientID secretHash =>
    trimSpace params.name ≠ [] → ∀ id ∈ inputs.id,
      byteLength (trimSpace params.name) ≤ 255 ∧
      (∀ owner ∈ params.ownerUserID, (d.auth.users.find (·.id) owner).isSome) ∧
      storable 255 (trimSpace params.name) ∧ storable 100 clientID ∧ '\u0000' ∉ secretHash ∧
      params.scopes ≠ [] ∧ (∀ s ∈ params.scopes, s ∈ allowedAPIScopes) ∧
      (∀ r ∈ d.clients.rows, r.id ≠ id ∧ r.clientID ≠ clientID) ∧
      ∀ expiresAt ∈ params.expiresAt, 1000 ∣ expiresAt
  | .listAPIClients =>
    inputs.iteration.order d.clients.rows =
      (inputs.scan.order d.clients.rows).mergeSort fun r r' => r'.createdAt ≤ r.createdAt
  | .setAPIClientStatus id status =>
    (d.clients.find (·.id) id).isSome → (validClientStatus status).isSome
  | .rotateAPIClientSecret id secretHash =>
    (d.clients.find (·.id) id).isSome → '\u0000' ∉ secretHash
  | .touchAPIClient id => (d.clients.find (·.id) id).isSome
  | .countUsers | .userByID _ | .setUserStatus _ _ | .setThemePreference _ _ | .revokeSession _
  | .revokeOtherSessions _ _ | .apiClientByID _ | .apiClientByClientID _ => True

end SecureShare.Auth
