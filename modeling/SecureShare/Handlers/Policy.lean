import SecureShare.Handlers.Changes
import SecureShare.Handlers.Credentials
import SecureShare.Handlers.Links

/-!
# The policy of the server

For each operation, what must be known before the server calls it: who acts and with which
permission, whose account it is about, or which token and password were presented.
-/
namespace SecureShare.Handlers
open Go Library Http
open Auth (User Session Actor)
open Delivery (UUID Bytes ConsumeCandidate storable)

section
variable (srv : Server) (r : Request) (calls : Calls)

/-- Someone acts who has the permission. -/
def Granted (permission : String) : Prop := ∃ actor, Acting srv r calls permission.toList actor

/-- Someone acts whose own account this is. -/
def Self (id : UUID) : Prop :=
  ∃ actor, Acting srv r calls "account:manage".toList actor ∧ id = actor.userID

/-- The limiter has let the request pass. -/
def Passed (limiter : Limiter) : Prop := ∃ key, ⟨.allow limiter key, some true⟩ ∈ calls

/-- The passwords of a request with which a user may prove to be one. -/
def Submitted (password : Text) : Prop :=
  (∃ body : LoginBody, r.decode .login = .ok body ∧ password = body.password) ∨
    password = r.form "password".toList ∨
    ∃ new, r.decode .changePassword = .ok (password, new)

/-- The user was found, is active, and the request has the password. -/
def Authenticated (user : User) : Prop :=
  ∃ login record password, ⟨.userForLogin login, some (some record)⟩ ∈ calls ∧
    record.status = .active ∧ Submitted r password ∧
    srv.deps.verifyPassword password record.passwordHash = true ∧ user = record.toUser

/-- The request presents the token with this hash, and a password, to reveal a secret. -/
def Presented (tokenHash : Bytes) (password : Text) : Prop :=
  ∃ token, r.decode .consume = .ok (token, password) ∧
    srv.deps.tokenHMAC srv.cfg.tokenHMACPepper token = some tokenHash

/-- The link of the token was found with this password hash, which the password matches. -/
def Unlocked (tokenHash : Bytes) (passwordHash : Option Text) : Prop :=
  ∃ password item, Presented srv r tokenHash password ∧
    ⟨.findConsumeCandidate tokenHash, some (some item)⟩ ∈ calls ∧ item.passwordHash = passwordHash ∧
    ∀ hash ∈ passwordHash, srv.deps.verifyPassword password hash = true

/-- The link was leased to the request after that. -/
def Leased (item : ConsumeCandidate) (leaseID : UUID) : Prop :=
  ∃ tokenHash passwordHash, Unlocked srv r calls tokenHash passwordHash ∧
    ⟨.newLeaseID, some leaseID⟩ ∈ calls ∧
    ⟨.beginConsume tokenHash passwordHash leaseID, some (some item)⟩ ∈ calls

/-- Someone acts who may send email, or manages its settings. -/
def MayEmail : Prop :=
  Granted srv r calls "email-settings:manage" ∨
    ∃ permission actor, Acting srv r calls permission actor ∧ emailActorAllowed srv actor = true

/-- What may be called after these calls, by who acts and by what was presented. -/
def Permitted : Op → Prop
  | .now | .allow _ _ | .query .ping | .query .vaultReady | .getPublicSettings
  | .recordAuditEvent _ => True
  | .sessionByHash id => cookieID srv r = some id
  | .revokeSession tokenHash =>
    ∃ id, cookieID srv r = some id ∧ tokenHash = srv.manager.tokenHash id
  | .apiClientByClientID clientID => ∃ secret, r.basicAuth = some (clientID, secret)
  | .touchAPIClient id =>
    ∃ permission client, ClientFound srv r calls permission client ∧ id = client.id
  | .userForLogin login =>
    Passed calls .login ∨
      ∃ actor, Acting srv r calls "account:manage".toList actor ∧ login = actor.username
  | .createSession user => Authenticated srv r calls user
  | .touchLastLogin id => ∃ user, Authenticated srv r calls user ∧ id = user.id
  | .query (.listSessions userID) => ∃ session, SessionFound srv r calls session ∧ userID = session.userID
  | .setThemePreference id _ => Self srv r calls id
  | .revokeOtherSessions id tokenHash =>
    ∃ actor, Acting srv r calls "account:manage".toList actor ∧ id = actor.userID ∧
      tokenHash = srv.manager.tokenHash actor.token
  | .setPassword id _ _ =>
    Granted srv r calls "user:manage" ∨
      Self srv r calls id ∧ ∃ user, Authenticated srv r calls user ∧ user.id = id
  | .userByID _ | .createUser _ | .updateUser _ _ | .query .listUsers =>
    Granted srv r calls "user:manage"
  | .apiClientByID _ | .createAPIClient _ | .setAPIClientStatus _ _ | .rotateAPIClientSecret _ _
  | .query .listAPIClients => Granted srv r calls "api-client:manage"
  | .query .dashboard =>
    Granted srv r calls "dashboard:read" ∨ Granted srv r calls "system:read" ∨
      Granted srv r calls "secret:read-metadata"
  | .query .listLinks | .query .recentActivity => Granted srv r calls "secret:read-metadata"
  | .insertParams actorID _ =>
    ∃ actor, Acting srv r calls "secret:create".toList actor ∧ actorID = actor.actorID
  | .insert params =>
    ∃ actor req token, Acting srv r calls "secret:create".toList actor ∧
      ⟨.insertParams actor.actorID req, some (.ok (params, token))⟩ ∈ calls
  | .metadata _ =>
    Granted srv r calls "secret:read-metadata" ∨ Granted srv r calls "secret:manage-protection"
  | .revoke _ | .revokeStatus _ => Granted srv r calls "secret:revoke"
  | .hashPassword _ => Granted srv r calls "secret:manage-protection"
  | .updatePasswordProtection id _ =>
    ∃ actor row, Acting srv r calls "secret:manage-protection".toList actor ∧
      ⟨.metadata id, some (some row)⟩ ∈ calls ∧ canManageProtection actor row.createdBy = true
  | .cleanup => Granted srv r calls "system:cleanup"
  | .getEmailSettings | .smtp => MayEmail srv r calls
  | .vaultEncrypt _ | .saveEmailSettings _ => Granted srv r calls "email-settings:manage"
  | .savePublicSettings _ => Granted srv r calls "public-experience:manage"
  | .prepare _ => Passed calls .prepare ∨ Granted srv r calls "email:send"
  | .findConsumeCandidate tokenHash =>
    Passed calls .consume ∧ ∃ password, Presented srv r tokenHash password
  | .recordPasswordFailure tokenHash passwordHash =>
    ∃ password item, Presented srv r tokenHash password ∧
      ⟨.findConsumeCandidate tokenHash, some (some item)⟩ ∈ calls ∧
      item.passwordHash = some passwordHash ∧ srv.deps.verifyPassword password passwordHash = false
  | .newLeaseID => ∃ tokenHash passwordHash, Unlocked srv r calls tokenHash passwordHash
  | .beginConsume tokenHash passwordHash leaseID =>
    Unlocked srv r calls tokenHash passwordHash ∧ ⟨.newLeaseID, some leaseID⟩ ∈ calls
  | .vaultDecrypt ciphertext =>
    ∃ item leaseID, Leased srv r calls item leaseID ∧ ciphertext = item.encryptedPayload
  | .restoreConsume id leaseID => ∃ item, Leased srv r calls item leaseID ∧ id = item.id
  | .completeConsume id leaseID =>
    ∃ item plaintext, Leased srv r calls item leaseID ∧ id = item.id ∧
      ⟨.vaultDecrypt item.encryptedPayload, some plaintext⟩ ∈ calls

/-- Logging in and revealing a secret need no session. -/
def NeedsSession (r : Request) : Prop :=
  r.path ≠ "/api/v1/auth/login".toList ∧ r.path ≠ "/api/v1/secret-links/consume".toList

/-- The request may have something changed. -/
def MayChange : Prop := Authorised srv r calls ∨ ¬NeedsSession r

/-- Nothing is changed for a cookie without its CSRF token. -/
def Unforged (op : Op) : Prop :=
  op.Keeps ∨
    (∃ permission client, ClientFound srv r calls permission client ∧ op = .touchAPIClient client.id) ∨
    MayChange srv r calls

/-- What may be called after these calls. -/
def Allowed (op : Op) : Prop := Permitted srv r calls op ∧ Unforged srv r calls op

/-- The calls show that there is a link with this ID. -/
def LinkSeen (id : UUID) : Prop :=
  (∃ params, ⟨.insert params, some ()⟩ ∈ calls ∧ params.id = id) ∨
    (∃ hash result, ⟨.updatePasswordProtection id hash, some result⟩ ∈ calls ∧
      result.updated = true) ∨
    (∃ tokenHash hash failure, ⟨.recordPasswordFailure tokenHash hash, some failure⟩ ∈ calls ∧
      failure.updated = true ∧ failure.id = id) ∨
    ∃ tokenHash hash leaseID item,
      ⟨.beginConsume tokenHash hash leaseID, some (some item)⟩ ∈ calls ∧ item.id = id

/-- A record fits the columns, the ID of the request aside, and but for revocations it names a
link that has been seen. -/
def Recordable : Op → Prop
  | .recordAuditEvent e =>
    e.WellFormed ∧ (e.requestID = r.requestID ∨ e.requestID = []) ∧
      ∀ id ∈ e.deliveryID, LinkSeen calls id ∨ e.type = "secret.revoked".toList
  | _ => True

end

theorem LinkSeen.mono {calls calls' : Calls} {id : UUID} (h : LinkSeen calls id)
    (hsub : calls ⊆ calls') : LinkSeen calls' id := by
  rcases h with ⟨params, hmem, hid⟩ | ⟨hash, result, hmem, hupdated⟩ |
    ⟨tokenHash, hash, failure, hmem, hfailure⟩ | ⟨tokenHash, hash, leaseID, item, hmem, hid⟩
  · exact .inl ⟨params, hsub hmem, hid⟩
  · exact .inr (.inl ⟨hash, result, hsub hmem, hupdated⟩)
  · exact .inr (.inr (.inl ⟨tokenHash, hash, failure, hsub hmem, hfailure⟩))
  · exact .inr (.inr (.inr ⟨tokenHash, hash, leaseID, item, hsub hmem, hid⟩))

theorem storable_ipHash {h : IPHasher} {c : Connection} : storable 128 (h.ipHash c) := by
  constructor
  · have hdigest : (h.digest (clientIP c)).length ≤ 12 := List.length_take_le _ _
    rw [IPHasher.ipHash, length_rawURLEncode]
    omega
  · intro hnul
    have halphabet := rawURLEncode_subset _ _ hnul
    revert halphabet
    decide

/-- What the rows of the store are like. -/
def Possible : (op : Op) → op.Answer → Prop
  | .sessionByHash _, session => Named (sessionActor session)
  | .apiClientByClientID _, client => Named (clientActor client)
  | .userForLogin _, record => ∀ user ∈ record, storable 255 user.username
  | _, _ => True

end SecureShare.Handlers
