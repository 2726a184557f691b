import SecureShare.Auth.Permissions
import SecureShare.Config
import SecureShare.Go.Base64
import SecureShare.Library.Interleaving
import SecureShare.Library.Table

/-!
# API clients

The table `api_clients`, the statements on it, and the requests that issue them:
an administrator creates, disables, enables and revokes a client or rotates its
secret, and a request authenticates as a client. A handler is a call that takes one
statement a step, so other requests run between its read and its write.
-/
namespace SecureShare.Auth
open Go Library
open Library.Interleaving (System Reply)
open Delivery (UUID Bytes storable)

inductive APIClientStatus where
  | active | disabled | revoked
  deriving DecidableEq, Repr

/-- Times of the database, in microseconds. -/
structure APIClient where
  id : UUID
  name : Text
  clientID : Text
  ownerUserID : Option UUID
  status : APIClientStatus
  scopes : List Text
  lastUsedAt : Option ℤ
  expiresAt : Option ℤ
  createdAt : ℤ
  updatedAt : ℤ
  deriving DecidableEq, Repr

structure APIClientWithSecret extends APIClient where
  secretHash : Text
  deriving DecidableEq, Repr

/-- `expiresAt` is a time of Go, in nanoseconds. -/
structure APIClientCreate where
  name : Text
  ownerUserID : Option UUID
  scopes : List Text
  expiresAt : Option ℤ
  deriving DecidableEq, Repr

/-- The constraints of `api_clients`. -/
def apiClients : Schema APIClientWithSecret where
  Check r := storable 255 r.name ∧ storable 100 r.clientID ∧ '\u0000' ∉ r.secretHash ∧
    r.scopes ≠ [] ∧ ∀ s ∈ r.scopes, s ∈ allowedAPIScopes
  Clash r r' := r.id = r'.id ∨ r.clientID = r'.clientID
  symm h := h.imp Eq.symm Eq.symm
  decidableCheck _ := inferInstanceAs (Decidable (_ ∧ _ ∧ _ ∧ _ ∧ _))
  decidableClash _ _ := inferInstanceAs (Decidable (_ ∨ _))

abbrev ClientTable := Table apiClients

theorem isKey_clientRowID : apiClients.IsKey (·.id) := .inl

theorem isKey_clientID : apiClients.IsKey (·.clientID) := .inr

/-- What a step obtains from outside: the answer of the database and its clock, the
clock of the server, and random bytes. -/
structure ClientInputs where
  reply : Reply
  databaseNow : ℤ
  now : ℤ
  id : Option UUID
  clientIDBytes : Option Bytes
  secretBytes : Option Bytes
  deriving DecidableEq, Repr

namespace Repository
variable (now : ℤ) (t : ClientTable)

/-- An UPDATE of the row with this ID, and the row it returns. The trigger writes
`updated_at`. -/
def updateAPIClient (id : UUID) (f : APIClientWithSecret → APIClientWithSecret) :
    Option (ClientTable × APIClient) :=
  let g : APIClientWithSecret → APIClientWithSecret := fun r => { f r with updatedAt := now }
  (t.update (·.id = id) g).bind fun t' =>
    (t.returning (·.id = id) g).head?.map fun r => (t', r.toAPIClient)

def setAPIClientStatus (id : UUID) (status : APIClientStatus) :
    Option (ClientTable × APIClient) :=
  updateAPIClient now t id fun r => { r with status := status }

def rotateAPIClientSecret (id : UUID) (secretHash : Text) : Option (ClientTable × APIClient) :=
  updateAPIClient now t id fun r => { r with secretHash := secretHash, status := .active }

/-- No row is an error only where a row is scanned. -/
def touchAPIClient (id : UUID) : Option (ClientTable × Unit) :=
  (t.update (·.id = id) fun r => { r with lastUsedAt := some now, updatedAt := now }).map
    fun t' => (t', ())

def apiClientByID (id : UUID) : Option APIClient :=
  (t.find (·.id) id).map APIClientWithSecret.toAPIClient

def apiClientByClientID (clientID : Text) : Option APIClientWithSecret :=
  t.find (·.clientID) clientID

def createAPIClient (id : UUID) (params : APIClientCreate) (clientID secretHash : Text) :
    Option (ClientTable × APIClient) :=
  let name := trimSpace params.name
  if name = [] ∨ 255 < byteLength name then none
  else
    let r : APIClientWithSecret :=
      { id, name, clientID, secretHash
        ownerUserID := params.ownerUserID
        status := .active
        scopes := params.scopes
        lastUsedAt := none
        expiresAt := params.expiresAt.map (· / 1000)
        createdAt := now
        updatedAt := now }
    (t.insert r).map fun t' => (t', r.toAPIClient)

end Repository

/-- `NewAPIClientID` -/
def newAPIClientID (bytes : Bytes) : Text := "ssc_".toList ++ rawURLEncode bytes

/-- `NewAPIClientSecret` -/
def newAPIClientSecret (bytes : Bytes) : Text := "sscs_".toList ++ rawURLEncode bytes

/-- HMAC-SHA-256. -/
abbrev Hmac := Text → Text → Bytes

/-- `HashAPIClientSecret` -/
def hashAPIClientSecret (hmac : Hmac) (pepper clientID secret : Text) : Text :=
  rawURLEncode (hmac pepper ("api-client:".toList ++ clientID ++ ":".toList ++ secret))

/-- `VerifyAPIClientSecret` -/
def verifyAPIClientSecret (hmac : Hmac) (pepper clientID secret encoded : Text) : Bool :=
  hashAPIClientSecret hmac pepper clientID secret = encoded

/-- `IsAPIClientUsable` at a time of Go. -/
def isAPIClientUsable (now : ℤ) (client : APIClient) : Bool :=
  client.status = .active && client.expiresAt.all fun expiresAt => now < expiresAt * 1000

/-- The part of a request that `apiClientActor` reads. -/
structure ClientRequest where
  basicAuth : Option (Text × Text)
  https : Bool
  permission : Text
  deriving DecidableEq, Repr

inductive ClientCreatePhase where
  | inserting
  | created (client : APIClient) (secret : Text)
  | refused
  deriving DecidableEq, Repr

/-- One UPDATE. -/
inductive StatusPhase where
  | updating
  | answered (client : APIClient)
  | refused
  deriving DecidableEq, Repr

/-- A SELECT, whose answer is checked, and an UPDATE. -/
inductive CheckedPhase where
  | reading
  | updating (current : APIClient)
  | answered (client : APIClient) (secret : Text)
  | refused
  deriving DecidableEq, Repr

inductive ActorPhase where
  | finding
  | touching (id : UUID) (actor : Actor)
  | accepted (actor : Actor)
  | refused
  deriving DecidableEq, Repr

/-- A request in progress. An administrator's request has been authorised. -/
inductive ClientCall where
  | create (params : APIClientCreate) (phase : ClientCreatePhase)
  | disable (id : UUID) (phase : StatusPhase)
  | enable (id : UUID) (phase : CheckedPhase)
  | revoke (id : UUID) (phase : StatusPhase)
  | rotateSecret (id : UUID) (phase : CheckedPhase)
  | authenticate (request : ClientRequest) (phase : ActorPhase)
  deriving DecidableEq, Repr

inductive ClientAction where
  | create (params : APIClientCreate)
  | disable (id : UUID)
  | enable (id : UUID)
  | revoke (id : UUID)
  | rotateSecret (id : UUID)
  | authenticate (request : ClientRequest)
  deriving DecidableEq, Repr

def ClientAction.call : ClientAction → ClientCall
  | .create params => .create params .inserting
  | .disable id => .disable id .updating
  | .enable id => .enable id .reading
  | .revoke id => .revoke id .updating
  | .rotateSecret id => .rotateSecret id .reading
  | .authenticate request => .authenticate request .finding

section handlers
variable (hmac : Hmac) (cfg : Config) (inputs : ClientInputs) (t : ClientTable)

/-- `CreateAPIClient`, as `handleAPIClientsAPI` calls it. -/
def handleCreate (params : APIClientCreate) : ClientTable × ClientCreatePhase :=
  match normalizeScopes params.scopes, inputs.clientIDBytes, inputs.secretBytes, inputs.id with
  | some scopes, some clientIDBytes, some secretBytes, some id =>
    let clientID := newAPIClientID clientIDBytes
    let secret := newAPIClientSecret secretBytes
    let r := inputs.reply.apply t (Repository.createAPIClient inputs.databaseNow t id
      { params with scopes } clientID
      (hashAPIClientSecret hmac cfg.tokenHMACPepper clientID secret))
    (r.1, match r.2 with
      | some client => .created client secret
      | none => .refused)
  | _, _, _, _ => (t, .refused)

/-- The actions `disable` and `revoke`. -/
def handleStatus (id : UUID) (status : APIClientStatus) : ClientTable × StatusPhase :=
  let r := inputs.reply.apply t (Repository.setAPIClientStatus inputs.databaseNow t id status)
  (r.1, match r.2 with
    | some client => .answered client
    | none => .refused)

/-- The check of the actions `enable` and `rotate-secret`. -/
def handleRead (id : UUID) : CheckedPhase :=
  match (inputs.reply.apply t ((Repository.apiClientByID t id).map fun c => (t, c))).2 with
  | none => .refused
  | some current => if current.status = .revoked then .refused else .updating current

def handleEnable (id : UUID) : ClientTable × CheckedPhase :=
  let r := inputs.reply.apply t (Repository.setAPIClientStatus inputs.databaseNow t id .active)
  (r.1, match r.2 with
    | some client => .answered client []
    | none => .refused)

def handleRotate (id : UUID) (current : APIClient) : ClientTable × CheckedPhase :=
  match inputs.secretBytes with
  | none => (t, .refused)
  | some secretBytes =>
    let secret := newAPIClientSecret secretBytes
    let r := inputs.reply.apply t (Repository.rotateAPIClientSecret inputs.databaseNow t id
      (hashAPIClientSecret hmac cfg.tokenHMACPepper current.clientID secret))
    (r.1, match r.2 with
      | some client => .answered client secret
      | none => .refused)

/-- The client that `apiClientActor` accepts. -/
def acceptedClient (request : ClientRequest) (secret : Text) (client : APIClientWithSecret) :
    Bool :=
  isAPIClientUsable inputs.now client.toAPIClient &&
    verifyAPIClientSecret hmac cfg.tokenHMACPepper client.clientID secret client.secretHash &&
    scopeAllowed client.scopes request.permission

/-- `apiClientActor` up to its answer; what is left is to note the use. -/
def apiClientActor (request : ClientRequest) : ActorPhase :=
  match request.basicAuth with
  | none => .refused
  | some (clientID, secret) =>
    if clientID = [] ∨ secret = [] then .refused
    else if cfg.appEnv = "production".toList ∧ ¬request.https then .refused
    else
      match (inputs.reply.apply t
          ((Repository.apiClientByClientID t clientID).map fun c => (t, c))).2 with
      | none => .refused
      | some client =>
        if acceptedClient hmac cfg inputs request secret client then
          .touching client.id
            { actorID := "api-client:".toList ++ client.clientID
              permissions := scopesMap client.scopes
              apiClient := true
              clientID := client.clientID }
        else .refused

/-- What `apiClientActor` accepts is an API client. -/
theorem apiClientActor_cases (request : ClientRequest) :
    apiClientActor hmac cfg inputs t request = .refused ∨
    ∃ id actor, actor.apiClient = true ∧
      apiClientActor hmac cfg inputs t request = .touching id actor := by
  unfold apiClientActor
  split
  · exact .inl rfl
  · split_ifs
    · exact .inl rfl
    · exact .inl rfl
    · split
      · exact .inl rfl
      · split_ifs
        · exact .inr ⟨_, _, rfl, rfl⟩
        · exact .inl rfl

/-- One step of a request; one that has been answered takes none. -/
def ClientCall.advance : ClientCall → Option (ClientTable × ClientCall)
  | .create params .inserting =>
    let r := handleCreate hmac cfg inputs t params
    some (r.1, .create params r.2)
  | .disable id .updating =>
    let r := handleStatus inputs t id .disabled
    some (r.1, .disable id r.2)
  | .enable id .reading => some (t, .enable id (handleRead inputs t id))
  | .enable id (.updating _) =>
    let r := handleEnable inputs t id
    some (r.1, .enable id r.2)
  | .revoke id .updating =>
    let r := handleStatus inputs t id .revoked
    some (r.1, .revoke id r.2)
  | .rotateSecret id .reading => some (t, .rotateSecret id (handleRead inputs t id))
  | .rotateSecret id (.updating current) =>
    let r := handleRotate hmac cfg inputs t id current
    some (r.1, .rotateSecret id r.2)
  | .authenticate request .finding =>
    some (t, .authenticate request (apiClientActor hmac cfg inputs t request))
  | .authenticate request (.touching id actor) =>
    -- a failed update is only logged
    some ((inputs.reply.apply t (Repository.touchAPIClient inputs.databaseNow t id)).1,
      .authenticate request (.accepted actor))
  | .create _ (.created _ _) | .create _ .refused | .disable _ (.answered _)
  | .disable _ .refused | .enable _ (.answered _ _) | .enable _ .refused | .revoke _ (.answered _)
  | .revoke _ .refused | .rotateSecret _ (.answered _ _) | .rotateSecret _ .refused
  | .authenticate _ (.accepted _) | .authenticate _ .refused => none

end handlers

/-- Requests that manage clients or authenticate as one, in any order and number. -/
def clientSystem (hmac : Hmac) (cfg : Config) :
    System ClientTable ClientCall ClientAction ClientInputs where
  start := ClientAction.call
  advance inputs t call := call.advance hmac cfg inputs t

end SecureShare.Auth
