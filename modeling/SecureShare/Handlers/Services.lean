import SecureShare.Delivery.System
import SecureShare.Handlers.Store

/-!
# The services behind the handlers

The functions of the session manager and of the services for users, links, email and the
public experience, as programs over the operations.
-/
namespace SecureShare.Handlers
open Go Library Http
open Auth (User UserPatch Session)
open Delivery (UUID CreateRequest CreateResponse ConsumeResponse PrepareResponse ServiceError
  RevokeResult ProtectionUpdateResult Status internal unavailable)

section auth
variable (srv : Server) (r : Request)

/-- The ID in a cookie that is signed. -/
def cookieID : Option Text := r.cookie.bind srv.manager.unsign

def fromRequest : Prog (Option Session) :=
  match cookieID srv r with
  | none => pure none
  | some id => perform (.sessionByHash id)

def destroy : Prog Unit :=
  match cookieID srv r with
  | none => pure ()
  | some id => do
    let _ ← perform (.revokeSession (srv.manager.tokenHash id))
    pure ()

inductive Authentication where
  | unavailable | rejected
  | accepted (user : User)

def authenticate (login password : Text) : Prog Authentication := do
  match ← perform (.userForLogin login) with
  | none => pure .unavailable
  | some none => pure .rejected
  | some (some record) =>
    if record.status = .active ∧ srv.deps.verifyPassword password record.passwordHash then
      pure (.accepted record.toUser)
    else pure .rejected

/-- `Repository.UpdateUser` -/
def updateUser (id : UUID) (patch : UserPatch) : Prog (Option User) := do
  match ← perform (.userByID id) with
  | none => pure none
  | some current =>
    match patch.columns srv.fns current with
    | none => pure none
    | some columns => perform (.updateUser id columns)

def setUserStatus (id : UUID) (status : Auth.UserStatus) : Prog (Option User) :=
  updateUser srv id ⟨none, none, none, some status.text, none⟩

end auth

/-! ### Links -/

/-- A failed INSERT is only logged. -/
def recordAudit (e : AuditEventRecord) : Prog Unit := do
  let _ ← perform (.recordAuditEvent
    { e with result := if e.result = [] then "success".toList else e.result })
  pure ()

def statusText : Status → Text
  | .active => "active".toList
  | .consuming => "consuming".toList
  | .consumed => "consumed".toList
  | .expired => "expired".toList
  | .revoked => "revoked".toList

section delivery
variable (srv : Server)

def create (actorID : Text) (req : CreateRequest) : Prog (Except ServiceError CreateResponse) := do
  match ← perform (.insertParams actorID req) with
  | none => pure (.error (internal "token generation failed"))
  | some (.error e) => pure (.error e)
  | some (.ok (params, token)) =>
    match ← perform (.insert params) with
    | none => pure (.error (internal "insert delivery failed"))
    | some () => do
      recordAudit
        { deliveryID := some params.id
          actorID := actorID
          type := "secret.created".toList
          result := "success".toList }
      pure (.ok ⟨params.id, srv.cfg.appBaseURL ++ "/s#".toList ++ token, params.expiresAt⟩)

/-- `Repository.Revoke` -/
def revokeLink (id : UUID) : Prog (Option RevokeResult) := do
  match ← perform (.revoke id) with
  | none => pure none
  | some true => pure (some ⟨id, some .revoked, true, true⟩)
  | some false => perform (.revokeStatus id)

/-- The audit row of a revocation that fails says that the link is unavailable. -/
def revoke (id : UUID) (actorID ipHash : Text) (requestID : ByteString) :
    Prog (Option RevokeResult) := do
  let result ← revokeLink id
  recordAudit
    { deliveryID := some id
      actorID := actorID
      type := "secret.revoked".toList
      result := (result.bind (·.status)).elim "unavailable".toList statusText
      ipHash := ipHash
      requestID := requestID }
  pure result

def setPasswordProtection (id : UUID) (password actorID ipHash : Text) (requestID : ByteString) :
    Prog (Except ServiceError ProtectionUpdateResult) := do
  if trimSpace password = [] ∨ 1024 < byteLength password then
    pure (.error { kind := .invalidRequest })
  else
    match ← perform (.hashPassword password) with
    | none => pure (.error (internal "password hash failed"))
    | some hash =>
      match ← perform (.updatePasswordProtection id (some hash)) with
      | none => pure (.error (internal "password protection update failed"))
      | some result =>
        if result.updated then do
          recordAudit
            { deliveryID := some id
              actorID := actorID
              type := if result.wasProtected then "secret.password_replaced".toList
                else "secret.password_set".toList
              result := "success".toList
              ipHash := ipHash
              requestID := requestID }
          pure (.ok result)
        else pure (.error unavailable)

def removePasswordProtection (id : UUID) (actorID ipHash : Text) (requestID : ByteString) :
    Prog (Except ServiceError ProtectionUpdateResult) := do
  match ← perform (.updatePasswordProtection id none) with
  | none => pure (.error (internal "password protection removal failed"))
  | some result =>
    if result.updated then
      if result.wasProtected then do
        recordAudit
          { deliveryID := some id
            actorID := actorID
            type := "secret.password_removed".toList
            result := "success".toList
            ipHash := ipHash
            requestID := requestID }
        pure (.ok result)
      else pure (.ok result)
    else pure (.error unavailable)

def prepare (token : Text) : Prog (Option PrepareResponse) :=
  match srv.deps.tokenHMAC srv.cfg.tokenHMACPepper token with
  | none => pure (some ⟨false, false, none⟩)
  | some tokenHash => perform (.prepare tokenHash)

/-- The branch of `Consume` for a wrong password. -/
def failPassword (tokenHash : Delivery.Bytes) (hash : Text) :
    Prog (Except ServiceError ConsumeResponse) := do
  match ← perform (.recordPasswordFailure tokenHash hash) with
  | none => pure (.error (internal "password failure state update failed"))
  | some failure =>
    if failure.updated then do
      recordAudit
        { deliveryID := some failure.id
          type := "secret.password_failed".toList
          result := if failure.locked then "locked".toList else "invalid".toList }
      if failure.locked then pure (.error unavailable)
      else pure (.error { kind := .linkPasswordInvalid })
    else pure (.error unavailable)

/-- `Consume` from `BeginConsume` on. -/
def consumeLease (tokenHash : Delivery.Bytes) (passwordHash : Option Text) :
    Prog (Except ServiceError ConsumeResponse) := do
  match ← perform .newLeaseID with
  | none => pure (.error (internal "lease id failed"))
  | some leaseID =>
    match ← perform (.beginConsume tokenHash passwordHash leaseID) with
    | none => pure (.error (internal "begin consume failed"))
    | some none => pure (.error unavailable)
    | some (some item) =>
      match ← perform (.vaultDecrypt item.encryptedPayload) with
      | none => do
        let _ ← perform (.restoreConsume item.id leaseID)
        pure (.error { kind := .dependencyUnavailable, detail := "vault decrypt failed" })
      | some plaintext =>
        match ← perform (.completeConsume item.id leaseID) with
        | none => pure (.error (internal "complete consume failed"))
        | some false => pure (.error unavailable)
        | some true =>
          match Delivery.normalizeConsumedPayload plaintext with
          | none => pure (.error (internal "decrypted payload was invalid"))
          | some (canonical, legacySecret) => do
            recordAudit
              { deliveryID := some item.id
                type := "secret.consumed".toList
                result := "success".toList }
            pure (.ok ⟨legacySecret, canonical⟩)

def consume (token password : Text) : Prog (Except ServiceError ConsumeResponse) := do
  match srv.deps.tokenHMAC srv.cfg.tokenHMACPepper token with
  | none => pure (.error unavailable)
  | some tokenHash =>
    match ← perform (.findConsumeCandidate tokenHash) with
    | none => pure (.error (internal "find consume candidate failed"))
    | some none => pure (.error unavailable)
    | some (some item) =>
      match item.passwordHash with
      | none => consumeLease tokenHash none
      | some hash =>
        if srv.deps.verifyPassword password hash then consumeLease tokenHash (some hash)
        else failPassword tokenHash hash

end delivery

/-! ### Email and the public experience -/

section settings
variable (srv : Server)

def safeEmailSettings : Prog (Option Email.Settings) := do
  match ← perform .getEmailSettings with
  | none => pure none
  | some stored => pure (some (Email.safeSettings (stored.getD Email.defaultStoredSettings)))

/-- `UpdateResult`, without the field that says whether there is a password. -/
structure EmailUpdateResult where
  settings : Email.Settings
  passwordUpdated : Bool
  passwordCleared : Bool

/-- The ciphertext that `Update` stores, given the stored one. -/
def nextCiphertext (req : Email.UpdateRequest) (current : Text) : Prog (Option Text) :=
  if req.clearSMTPPassword then pure (some [])
  else if req.smtpPassword = [] then pure (some current)
  else perform (.vaultEncrypt req.smtpPassword)

/-- `Service.Update` of the email settings. -/
def updateEmail (actorUserID : UUID) (req : Email.UpdateRequest) :
    Prog (Except Email.EmailError EmailUpdateResult) := do
  match ← perform .getEmailSettings with
  | none => pure (.error .internal)
  | some stored =>
    let current := stored.getD Email.defaultStoredSettings
    match ← nextCiphertext req current.smtpPasswordCiphertext with
    | none => pure (.error .dependency)
    | some ciphertext =>
      let next : Email.StoredSettings :=
        { toSettings := req.next srv.email.toLower actorUserID
          smtpPasswordCiphertext := ciphertext }
      match srv.email.validateStored next next.enabled with
      | some e => pure (.error (.validation e))
      | none =>
        match ← perform (.saveEmailSettings next) with
        | none => pure (.error .internal)
        | some saved =>
          pure (.ok
            { settings := Email.safeSettings saved
              passwordUpdated := !req.clearSMTPPassword && req.smtpPassword ≠ []
              passwordCleared := req.clearSMTPPassword && current.smtpPasswordCiphertext ≠ [] })

def setEmailEnabled (actorUserID : UUID) (enabled : Bool) :
    Prog (Except Email.EmailError Email.Settings) := do
  match ← perform .getEmailSettings with
  | none => pure (.error .internal)
  | some none => pure (.error .notConfigured)
  | some (some current) =>
    let next : Email.StoredSettings :=
      { current with
        enabled := enabled
        updatedBy := if actorUserID = 0 then none else some actorUserID }
    match if enabled then srv.email.validateStored next true else none with
    | some e => pure (.error (.validation e))
    | none =>
      match ← perform (.saveEmailSettings next) with
      | none => pure (.error .internal)
      | some saved => pure (.ok (Email.safeSettings saved))

/-- Talks to the SMTP server of complete settings that `usable` accepts; the answer is
the category of a failure. -/
def sendWith (usable : Email.StoredSettings → Bool) (recipient : Option Text) :
    Prog (Option Email.Category) := do
  match ← perform .getEmailSettings with
  | none | some none => pure (some .configurationError)
  | some (some stored) =>
    if (srv.email.validateStored stored true).isSome ∨ usable stored = false then
      pure (some .configurationError)
    else if recipient.all (fun address => srv.email.parseAddress (trimSpace address)) then do
      let answer ← perform .smtp
      pure (answer.getD (some .connectionFailed))
    else pure (some .recipientRejected)

def testConnection : Prog (Option Email.Category) := sendWith srv (fun _ => true) none

def sendTest (recipient : Text) : Prog (Option Email.Category) :=
  sendWith srv (fun _ => true) (some recipient)

def sendRendered (recipient : Text) : Prog (Option Email.Category) :=
  sendWith srv (fun stored => stored.enabled) (some recipient)

/-- `Current` -/
def currentPublicSettings : Prog (Option PublicExperience.Settings) := do
  match ← perform .getPublicSettings with
  | none => pure none
  | some settings => pure (some (settings.getD PublicExperience.defaultSettings))

/-- `Update` of the public experience; an error is either an invalid locale or not. -/
def updatePublicSettings (updatedBy : UUID) (locale : Text) :
    Prog (Except Bool PublicExperience.Settings) := do
  match PublicExperience.validLocale (srv.fns.toLower (trimSpace locale)) with
  | none => pure (.error true)
  | some publicLocale =>
    match ← currentPublicSettings with
    | none => pure (.error false)
    | some current =>
      match ← perform (.savePublicSettings
          { current with publicLocale := publicLocale, updatedBy := some updatedBy }) with
      | none => pure (.error false)
      | some settings => pure (.ok settings)

end settings

end SecureShare.Handlers
