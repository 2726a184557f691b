import SecureShare.Config
import SecureShare.Delivery.Payload
import SecureShare.Delivery.Statement

/-!
# Creating a delivery

What `Service.Create` checks and in which order, up to the parameters of the
INSERT, and the row that the INSERT writes. The cryptographic functions are
parameters; random values and the answers of other systems come from the
surroundings of the call.
-/
namespace SecureShare.Delivery
open Go

/-- HMAC-SHA-256, Vault Transit and Argon2id. Encryption and hashing take their
random input as a number. -/
structure Dependencies where
  hmac : Text → Text → Bytes
  encrypt : ℕ → Text → Text
  decrypt : Text → Option Text
  hash : ℕ → Text → Text
  verifyPassword : Text → Text → Bool

namespace Dependencies

/-- `TokenHMAC` -/
def tokenHMAC (deps : Dependencies) (pepper token : Text) : Option Bytes :=
  if pepper = [] ∨ token = [] then none else some (deps.hmac pepper token)

/-- `VaultTransit.Encrypt`; no nonce means that Vault did not answer. -/
def vaultEncrypt (deps : Dependencies) (nonce : Option ℕ) (plaintext : Text) : Option Text :=
  nonce.bind fun n =>
    if deps.encrypt n plaintext = [] then none else some (deps.encrypt n plaintext)

/-- `HashPassword`; no salt means that the random source failed. -/
def hashPassword (deps : Dependencies) (salt : Option ℕ) (password : Text) : Option Text :=
  if password = [] then none else salt.map fun n => deps.hash n password

end Dependencies

/-- What a create call obtains from outside; `now` is a time of Go. -/
structure CreateInputs where
  token : Option Text
  nonce : Option ℕ
  salt : Option ℕ
  now : ℤ
  id : Option UUID
  deriving DecidableEq, Repr

def validateCreate (cfg : Config) (req : CreateRequest) (payload : Text) :
    Except ServiceError Unit :=
  if payload = [] ∨ payload = "null".toList then .error { kind := .invalidRequest }
  else if Json.valid payload = false then .error { kind := .invalidRequest }
  else if cfg.maxSecretBytes.toInt < byteLength payload then .error { kind := .payloadTooLarge }
  else if 255 < byteLength req.title ∨ 2000 < byteLength req.description ∨
      255 < byteLength req.recipientReference then .error { kind := .invalidRequest }
  else if req.maxFailedAttempts < 0 ∨ 20 < req.maxFailedAttempts then
    .error { kind := .invalidRequest }
  else if 0 < req.expiresInSeconds ∧
      cfg.maxSecretTTL < req.expiresInSeconds * Duration.second then
    .error { kind := .invalidRequest }
  else .ok ()

/-- The product is an int64 and wraps around. -/
def ttl (cfg : Config) (seconds : Int64) : Duration :=
  if seconds ≤ 0 then cfg.defaultSecretTTL else seconds * Duration.second

/-- A blank password protects nothing. -/
def requestedPassword (req : CreateRequest) : Option Text :=
  req.password.filter fun p => trimSpace p ≠ []

/-- The value, or the error when there is none. -/
def require {α : Type} (value : Option α) (kind : ErrorKind) (detail : String) :
    Except ServiceError α :=
  match value with
  | some a => .ok a
  | none => .error { kind := kind, detail := detail }

/-- The stored hash of the requested password, if one is requested. -/
def requestedHash (deps : Dependencies) (salt : Option ℕ) (req : CreateRequest) :
    Except ServiceError (Option Text) :=
  match requestedPassword req with
  | none => .ok none
  | some password =>
    (require (deps.hashPassword salt password) .internal "password hash failed").map some

/-- `Service.Create` up to the INSERT: its parameters and the raw token. -/
def insertParams (deps : Dependencies) (cfg : Config) (inputs : CreateInputs) (actorID : Text)
    (req : CreateRequest) : Except ServiceError (InsertParams × Text) :=
  if actorID = [] then .error { kind := .unauthorized }
  else do
    let payload ← canonicalPayload req
    let _ ← validateCreate cfg req payload.1
    let token ← require inputs.token .internal "token generation failed"
    let tokenHash ← require (deps.tokenHMAC cfg.tokenHMACPepper token) .internal
      "token hash failed"
    let encrypted ← require (deps.vaultEncrypt inputs.nonce payload.1) .dependencyUnavailable
      "vault encrypt failed"
    let passwordHash ← requestedHash deps inputs.salt req
    let id ← require inputs.id .internal "id generation failed"
    .ok ({ id := id
           tokenHash := tokenHash
           encryptedPayload := encrypted
           title := trimSpace req.title
           description := trimSpace req.description
           recipientReference := trimSpace req.recipientReference
           expiresAt := inputs.now + (ttl cfg req.expiresInSeconds).toInt
           passwordHash := passwordHash
           maxFailedAttempts := if req.maxFailedAttempts ≤ 0 then 5 else req.maxFailedAttempts
           createdBy := actorID
           payloadType := payload.2.type
           payloadFieldCount := payload.2.fieldCount
           containsSensitive := payload.2.containsSensitive }, token)

def emptyToNil (value : Text) : Option Text := if value = [] then none else some value

/-- The row of the INSERT; a timestamp is stored in whole microseconds. -/
def InsertParams.row (p : InsertParams) (now : ℤ) : Row :=
  { id := p.id
    tokenHash := p.tokenHash
    encryptedPayload := p.encryptedPayload
    title := emptyToNil p.title
    description := emptyToNil p.description
    recipientReference := emptyToNil p.recipientReference
    status := .active
    expiresAt := p.expiresAt / 1000
    consumedAt := none
    revokedAt := none
    consumingStartedAt := none
    consumingLeaseID := none
    passwordHash := p.passwordHash
    failedAttempts := 0
    maxFailedAttempts := p.maxFailedAttempts
    createdBy := p.createdBy
    createdAt := now
    updatedAt := now
    payloadType := p.payloadType
    payloadFieldCount := p.payloadFieldCount
    payloadContainsSensitive := p.containsSensitive }

theorem bind_eq_ok {ε α β : Type} {x : Except ε α} {f : α → Except ε β} {b : β} :
    x >>= f = .ok b ↔ ∃ a, x = .ok a ∧ f a = .ok b := by
  cases x with
  | error e => exact ⟨nofun, nofun⟩
  | ok a => exact ⟨fun h => ⟨a, rfl, h⟩, fun ⟨_, rfl, h⟩ => h⟩

private theorem require_eq_ok {α : Type} {value : Option α} {kind : ErrorKind} {detail : String}
    {a : α} : require value kind detail = .ok a ↔ value = some a := by
  cases value <;> simp [require]

theorem vaultEncrypt_eq_some {deps : Dependencies} {nonce : Option ℕ} {p c : Text} :
    deps.vaultEncrypt nonce p = some c ↔
      ∃ n, nonce = some n ∧ c = deps.encrypt n p ∧ c ≠ [] := by
  simp only [Dependencies.vaultEncrypt, Option.bind_eq_some_iff]
  constructor
  · rintro ⟨n, hn, h⟩
    split_ifs at h with hc
    cases h
    exact ⟨n, hn, rfl, hc⟩
  · rintro ⟨n, hn, rfl, hc⟩
    exact ⟨n, hn, if_neg hc⟩

theorem requestedHash_eq_ok {deps : Dependencies} {salt : Option ℕ} {req : CreateRequest}
    {password : Text} {hash : Option Text} (hpassword : requestedPassword req = some password)
    (h : requestedHash deps salt req = .ok hash) : ∃ n, hash = some (deps.hash n password) := by
  simp only [requestedHash, hpassword] at h
  cases hhash : deps.hashPassword salt password with
  | none =>
      rw [hhash] at h
      cases h
  | some stored =>
      rw [hhash] at h
      cases h
      unfold Dependencies.hashPassword at hhash
      split_ifs at hhash
      obtain ⟨n, _, rfl⟩ := Option.map_eq_some_iff.mp hhash
      exact ⟨n, rfl⟩

/-- What an accepted request determines of the INSERT. -/
structure Accepts (deps : Dependencies) (cfg : Config) (inputs : CreateInputs)
    (req : CreateRequest) (params : InsertParams) (token p : Text) : Prop where
  canonical : ∃ summary, canonicalPayload req = .ok (p, summary)
  validated : validateCreate cfg req p = .ok ()
  encrypted : ∃ n, inputs.nonce = some n ∧ params.encryptedPayload = deps.encrypt n p
  nonempty : params.encryptedPayload ≠ []
  tokenHash : deps.tokenHMAC cfg.tokenHMACPepper token = some params.tokenHash
  maxFailedAttempts : params.maxFailedAttempts =
    if req.maxFailedAttempts ≤ 0 then 5 else req.maxFailedAttempts
  expiresAt : params.expiresAt = inputs.now + (ttl cfg req.expiresInSeconds).toInt
  id : inputs.id = some params.id

theorem insertParams_spec {deps : Dependencies} {cfg : Config} {inputs : CreateInputs}
    {actorID : Text} {req : CreateRequest} {params : InsertParams} {token : Text}
    (h : insertParams deps cfg inputs actorID req = .ok (params, token)) :
    ∃ p, Accepts deps cfg inputs req params token p := by
  have hactor : actorID ≠ [] := by
    rintro rfl
    cases h
  rw [insertParams, if_neg hactor] at h
  simp only [bind_eq_ok, require_eq_ok] at h
  obtain ⟨⟨p, summary⟩, hcanonical, ⟨⟩, hvalidated, t, _, tokenHash, htoken, c, hc, hash, _,
    id, hid, h⟩ := h
  cases h
  obtain ⟨n, hn, rfl, hne⟩ := vaultEncrypt_eq_some.mp hc
  exact ⟨p, ⟨summary, hcanonical⟩, hvalidated, ⟨n, hn, rfl⟩, hne, htoken, rfl, rfl, hid⟩

theorem insertParams_createdBy {deps : Dependencies} {cfg : Config} {inputs : CreateInputs}
    {actorID : Text} {req : CreateRequest} {params : InsertParams} {token : Text}
    (h : insertParams deps cfg inputs actorID req = .ok (params, token)) :
    params.createdBy = actorID := by
  have hactor : actorID ≠ [] := by
    rintro rfl
    cases h
  rw [insertParams, if_neg hactor] at h
  simp only [bind_eq_ok] at h
  obtain ⟨_, _, _, _, _, _, _, _, _, _, _, _, _, _, h⟩ := h
  cases h
  rfl

theorem insertParams_token {deps : Dependencies} {cfg : Config} {inputs : CreateInputs}
    {actorID : Text} {req : CreateRequest} {params : InsertParams} {token : Text}
    (h : insertParams deps cfg inputs actorID req = .ok (params, token)) :
    inputs.token = some token := by
  have hactor : actorID ≠ [] := by
    rintro rfl
    cases h
  rw [insertParams, if_neg hactor] at h
  simp only [bind_eq_ok, require_eq_ok] at h
  obtain ⟨_, _, _, _, t, ht, _, _, _, _, _, _, _, _, h⟩ := h
  cases h
  exact ht

/-- The columns that come from the request. -/
structure Columns (deps : Dependencies) (inputs : CreateInputs) (req : CreateRequest)
    (params : InsertParams) (p : Text) : Prop where
  title : params.title = trimSpace req.title
  description : params.description = trimSpace req.description
  recipientReference : params.recipientReference = trimSpace req.recipientReference
  passwordHash : requestedHash deps inputs.salt req = .ok params.passwordHash
  canonical : canonicalPayload req =
    .ok (p, ⟨params.payloadType, params.payloadFieldCount, params.containsSensitive⟩)

theorem insertParams_columns {deps : Dependencies} {cfg : Config} {inputs : CreateInputs}
    {actorID : Text} {req : CreateRequest} {params : InsertParams} {token : Text}
    (h : insertParams deps cfg inputs actorID req = .ok (params, token)) :
    ∃ p, Accepts deps cfg inputs req params token p ∧ Columns deps inputs req params p := by
  obtain ⟨p, haccepts⟩ := insertParams_spec h
  have hactor : actorID ≠ [] := by
    rintro rfl
    cases h
  rw [insertParams, if_neg hactor] at h
  simp only [bind_eq_ok] at h
  obtain ⟨⟨p', summary⟩, hcanonical, _, _, _, _, _, _, _, _, _, hhash, _, _, h⟩ := h
  cases h
  obtain ⟨_, hp⟩ := haccepts.canonical
  obtain ⟨rfl, _⟩ := Prod.mk.inj (Except.ok.inj (hp.symm.trans hcanonical))
  exact ⟨p, haccepts, rfl, rfl, rfl, hhash, hcanonical⟩

/-- The limits that `validateCreate` puts on a request. -/
theorem validateCreate_ok {cfg : Config} {req : CreateRequest} {p : Text}
    (h : validateCreate cfg req p = .ok ()) :
    Json.valid p = true ∧ 0 ≤ req.maxFailedAttempts ∧ req.maxFailedAttempts ≤ 20 := by
  unfold validateCreate at h
  split_ifs at h with _ hvalid _ _ hmax
  rw [not_or] at hmax
  exact ⟨by simpa using hvalid, by omega, by omega⟩

theorem Accepts.maxFailedAttempts_pos {deps : Dependencies} {cfg : Config}
    {inputs : CreateInputs} {req : CreateRequest} {params : InsertParams} {token p : Text}
    (h : Accepts deps cfg inputs req params token p) :
    0 < params.maxFailedAttempts ∧ params.maxFailedAttempts ≤ 20 := by
  obtain ⟨_, hmin, hmax⟩ := validateCreate_ok h.validated
  rw [h.maxFailedAttempts]
  split_ifs <;> omega

/-- Cryptography that only marks its input, and settings that load; they stand
for concrete values wherever a result is applied to one. -/
def sampleDependencies : Dependencies where
  hmac _ token := (token.map fun c => UInt8.ofNat c.toNat) ++ List.replicate (32 - token.length) 0
  encrypt _ p := 'v' :: p
  decrypt c := c.tail?
  hash _ p := 'h' :: p
  verifyPassword p h := h == 'h' :: p

def sampleConfig : Config where
  appEnv := "development".toList
  appBaseURL := "http://localhost:8080".toList
  databaseURL := "postgres://localhost".toList
  vaultAddr := "http://localhost:8200".toList
  vaultToken := "root".toList
  vaultTransitKey := "secureshare".toList
  adminAPIKey := "change-me".toList
  tokenHMACPepper := "pepper".toList
  sessionSecret := "session".toList
  csrfSecret := "csrf".toList
  bootstrapAdminUsername := []
  bootstrapAdminEmail := []
  bootstrapAdminPassword := []
  sessionTTL := 12 * 3600 * Duration.second
  sessionIdleTimeout := 1800 * Duration.second
  cookieSecure := false
  maxSecretTTL := 168 * 3600 * Duration.second
  defaultSecretTTL := 24 * 3600 * Duration.second
  consumingLeaseTTL := 30 * Duration.second
  cleanupInterval := 300 * Duration.second
  consumedRetention := 0
  expiredRetention := 24 * 3600 * Duration.second
  revokedRetention := 24 * 3600 * Duration.second
  auditRetention := 90 * 24 * 3600 * Duration.second
  maxSecretBytes := 32768
  requestIPHashPepper := "session".toList

theorem sampleConfig_accepted : sampleConfig.Accepted (fun _ => none) id := by decide

def sampleRequest : CreateRequest where
  title := []
  description := []
  recipientReference := []
  secret := "\"s\"".toList
  payload := none
  expiresInSeconds := 3600
  password := none
  maxFailedAttempts := 3

def sampleInputs : CreateInputs where
  token := some ['t']
  nonce := some 0
  salt := some 0
  now := 0
  id := some 7

def sampleParams : InsertParams where
  id := 7
  tokenHash := sampleDependencies.hmac [] ['t']
  encryptedPayload := "v\x7b\"type\":\"text\",\"text\":\"s\"\x7d".toList
  title := []
  description := []
  recipientReference := []
  expiresAt := 3600 * 1000000000
  passwordHash := none
  maxFailedAttempts := 3
  createdBy := "admin".toList
  payloadType := "text".toList
  payloadFieldCount := 0
  containsSensitive := false

theorem insertParams_sample : insertParams sampleDependencies sampleConfig sampleInputs
    "admin".toList sampleRequest = .ok (sampleParams, ['t']) := by
  decide +kernel

end SecureShare.Delivery
