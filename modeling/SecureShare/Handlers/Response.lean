import SecureShare.Handlers.Access
import SecureShare.Http.EmailDelivery

/-!
# What handlers answer

The answers of the server, and the checks with which most handlers begin: a body that is
decoded, an actor that may act, a session that may see a page.
-/
namespace SecureShare.Handlers
open Go Library Http
open Auth (User Session Role ThemePreference APIClient Actor)
open Delivery (ServiceError ErrorKind CreateResponse ConsumeResponse PrepareResponse RevokeResult
  ProtectionUpdateResult CleanupResult)

inductive ErrorCode where
  | invalidRequest | unauthorized | forbidden | secretUnavailable | linkPasswordInvalid
  | rateLimited | payloadTooLarge | internal | dependencyUnavailable
  | emailDeliveryNotConfigured | smtpConfigurationError
  deriving DecidableEq, Repr

inductive EmailStatus where
  | notRequested | sent | failed
  deriving DecidableEq, Repr

/-- The address is masked when it is written. -/
structure EmailDeliveryResult where
  requested : Bool
  status : EmailStatus
  errorCode : Text := []
  toAddress : Text := []
  sentAt : Option ℤ := none
  templateSource : Option Email.TemplateSource := none
  deriving DecidableEq, Repr

/-- What is written as JSON. The rows of a query are not kept. -/
inductive Body where
  | error (code : ErrorCode) (message : Text)
  | fields (code : ErrorCode) (message : Text) (fields : List (Text × Text))
  | ok
  | loggedIn (actorID : Text) (role : Role) (csrfToken : Text)
  | csrfToken (token : Text)
  | me (session : Session)
  | theme (theme : ThemePreference)
  | rows (q : Query)
  | user (user : User)
  | client (client : APIClient)
  | issuedClient (client : APIClient) (secret : Text)
  | created (link : CreateResponse) (email : EmailDeliveryResult)
  | email (email : EmailDeliveryResult)
  | metadata (row : Delivery.Row)
  | revoked (result : RevokeResult)
  | protection (result : ProtectionUpdateResult)
  | cleanup (result : CleanupResult)
  | emailSettings (settings : Email.Settings)
  | tested (failure : Option Email.Category)
  | preview (rendered : Email.RenderedTemplate)
  | publicSettings (settings : PublicExperience.Settings)
  | prepared (response : PrepareResponse)
  | consumed (response : ConsumeResponse)
  | status (text : Text)
  | version

inductive Response where
  | json (status : ℕ) (body : Body)
  | page (status : ℕ) (template : Text)
  | redirect (status : ℕ) (location : Text)
  | file
  | notFound

def Response.status : Response → ℕ
  | .json status _ | .page status _ | .redirect status _ => status
  | .file => 200
  | .notFound => 404

def writeError (code : ErrorCode) (message : String) (status : ℕ) : Response :=
  .json status (.error code message.toList)

def methodNotAllowed : Response := writeError .invalidRequest "Method not allowed." 405

def invalidRequest : Response := writeError .invalidRequest "Invalid request." 400

def unauthorized : Response := writeError .unauthorized "Unauthorized." 401

def forbidden : Response := writeError .forbidden "Forbidden." 403

def internalError : Response := writeError .internal "Internal error." 500

def dependencyUnavailable : Response :=
  writeError .dependencyUnavailable "Dependency unavailable." 503

def rateLimited : Response := writeError .rateLimited "Rate limit exceeded." 429

/-- `ErrorStatus` -/
def errorStatus : ErrorKind → ℕ
  | .unauthorized | .linkPasswordInvalid => 401
  | .forbidden => 403
  | .secretUnavailable => 410
  | .payloadTooLarge => 413
  | .dependencyUnavailable => 503
  | .invalidRequest => 400
  | .internal => 500

/-- `ErrorCodeFor` -/
def errorCodeFor : ErrorKind → ErrorCode
  | .unauthorized => .unauthorized
  | .linkPasswordInvalid => .linkPasswordInvalid
  | .forbidden => .forbidden
  | .secretUnavailable => .secretUnavailable
  | .payloadTooLarge => .payloadTooLarge
  | .dependencyUnavailable => .dependencyUnavailable
  | .invalidRequest => .invalidRequest
  | .internal => .internal

def deliveryMessage : ErrorKind → String
  | .secretUnavailable => "This secret has expired, was revoked, or has already been viewed."
  | .linkPasswordInvalid => "The link password is incorrect."
  | .payloadTooLarge => "Payload too large."
  | .invalidRequest => "Invalid request."
  | .dependencyUnavailable => "Dependency unavailable."
  | .unauthorized | .forbidden | .internal => "The request could not be completed."

def writeDeliveryError (e : ServiceError) : Response :=
  writeError (errorCodeFor e.kind) (deliveryMessage e.kind) (errorStatus e.kind)

def writeEmailError : Email.EmailError → Response
  | .validation e =>
    .json (if e.forbidden then 403 else 400)
      (.fields .smtpConfigurationError "SMTP configuration is incomplete.".toList e.fields)
  | .invalid => invalidRequest
  | .notConfigured => writeError .invalidRequest "Email settings are not configured." 422
  | .dependency => dependencyUnavailable
  | .internal => internalError

def refuse : Refusal → Response
  | .forbidden => forbidden
  | .unauthorized => unauthorized

section
variable {ε α : Type}

/-- Goes on with what a program finds, or answers with this response. -/
def withSome (p : Prog (Option α)) (failed : Response) (next : α → Prog Response) :
    Prog Response := do
  match ← p with
  | none => pure failed
  | some a => next a

/-- Goes on with the result of a program, or answers with its error. -/
def withOk (p : Prog (Except ε α)) (failed : ε → Response) (next : α → Prog Response) :
    Prog Response := do
  match ← p with
  | .error e => pure (failed e)
  | .ok a => next a

/-- Goes on if the limiter allows another call. -/
def withLimit (limiter : Limiter) (key : Text) (limited : Response) (next : Prog Response) :
    Prog Response := do
  if (← perform (.allow limiter key)).getD false then next else pure limited

end

section
variable (srv : Server) (r : Request) (permission : Text)

/-- Goes on with the body that `decodeJSON` decodes. -/
def decodeJSON (kind : BodyKind) (next : kind.Body → Prog Response) : Prog Response :=
  match r.decode kind with
  | .error .mediaType =>
    pure (writeError .invalidRequest "Content-Type must be application/json." 415)
  | .error .tooLarge => pure (writeError .payloadTooLarge "Payload too large." 413)
  | .error .invalid => pure invalidRequest
  | .ok body => next body

/-- Goes on with the actor that `requireAPI` accepts. -/
def withActor (next : Actor → Prog Response) : Prog Response :=
  withOk (requireAPI srv r permission) refuse next

/-- Goes on with the session of the cookie. -/
def withSession (next : Session → Prog Response) : Prog Response :=
  withSome (fromRequest srv r) unauthorized next

/-- Goes on with the session that `requirePageSession` accepts. -/
def withPage (next : Session → Prog Response) : Prog Response :=
  withSome (fromRequest srv r) (.redirect 302 "/login".toList) fun session =>
    if permission ∈ session.permissions then next session
    else pure (.page 403 "error.html".toList)

/-- A page with the data of the session. -/
def render (template : String) : Prog Response := do
  let _ ← fromRequest srv r
  pure (.page 200 template.toList)

def renderPageError (status : ℕ) : Prog Response := do
  let _ ← fromRequest srv r
  pure (.page status "error.html".toList)

/-- A page that is not there. -/
def pageNotFound : Prog Response :=
  withSome (fromRequest srv r) .notFound fun _ => pure (.page 404 "error.html".toList)

/-- An audit record of the request. -/
def requestRecord (actorID type result : Text) : AuditEventRecord where
  actorID := actorID
  type := type
  result := result
  ipHash := srv.hasher.ipHash r.connection
  requestID := r.requestID

def auditRequest (actorID : Text) (type result : String) : Prog Unit :=
  recordAudit (requestRecord srv r actorID type.toList result.toList)

def dependencyState : Prog Unit := do
  let _ ← perform (.query .ping)
  let _ ← perform (.query .vaultReady)
  pure ()

end

/-! ### What the checks call -/

section
variable {srv : Server} {r : Request} {ε α : Type} {P : Op → Prop}

theorem uses_call {op : Op} {next : Option op.Answer → Prog α} (h : P op)
    (hnext : ∀ answer, (next answer).Uses P) : (perform op >>= next).Uses P :=
  (Program.uses_perform.mpr h).bind hnext

theorem uses_withSome {p : Prog (Option α)} {failed : Response}
    {next : α → Prog Response} (h : p.Uses P) (hnext : ∀ a, (next a).Uses P) :
    (withSome p failed next).Uses P := by
  refine h.bind fun found => ?_
  cases found with
  | none => exact Program.uses_pure
  | some a => exact hnext a

theorem uses_withOk {p : Prog (Except ε α)} {failed : ε → Response}
    {next : α → Prog Response} (h : p.Uses P) (hnext : ∀ a, (next a).Uses P) :
    (withOk p failed next).Uses P := by
  refine h.bind fun found => ?_
  cases found with
  | error e => exact Program.uses_pure
  | ok a => exact hnext a

theorem uses_withLimit {limiter : Limiter} {key : Text} {limited : Response}
    {next : Prog Response} (h : P (.allow limiter key)) (hnext : next.Uses P) :
    (withLimit limiter key limited next).Uses P := by
  refine (Program.uses_perform.mpr h).bind fun allowed => ?_
  split_ifs
  · exact hnext
  · exact Program.uses_pure

theorem uses_decodeJSON {kind : BodyKind} {next : kind.Body → Prog Response}
    (h : ∀ body, r.decode kind = .ok body → (next body).Uses P) :
    (decodeJSON r kind next).Uses P := by
  unfold decodeJSON
  split
  · exact Program.uses_pure
  · exact Program.uses_pure
  · exact Program.uses_pure
  · next body hbody => exact h body hbody

theorem uses_fromRequest (h : ∀ id, cookieID srv r = some id → P (.sessionByHash id)) :
    (fromRequest srv r).Uses P := by
  unfold fromRequest
  split
  · exact Program.uses_pure
  · next id hid => exact Program.uses_perform.mpr (h id hid)

theorem uses_safeEmailSettings (h : P .getEmailSettings) : safeEmailSettings.Uses P := by
  refine uses_call h fun stored => ?_
  cases stored <;> exact Program.uses_pure

theorem uses_sendWith {usable : Email.StoredSettings → Bool} {recipient : Option Text}
    (hget : P .getEmailSettings) (hsmtp : P .smtp) : (sendWith srv usable recipient).Uses P := by
  refine uses_call hget fun stored => ?_
  match stored with
  | none => exact Program.uses_pure
  | some none => exact Program.uses_pure
  | some (some stored) =>
    dsimp only
    split_ifs
    · exact Program.uses_pure
    · exact uses_call hsmtp fun _ => Program.uses_pure
    · exact Program.uses_pure

theorem uses_currentPublicSettings (h : P .getPublicSettings) : currentPublicSettings.Uses P := by
  refine uses_call h fun settings => ?_
  cases settings <;> exact Program.uses_pure

theorem uses_prepare {token : Text} (h : ∀ tokenHash, P (.prepare tokenHash)) :
    (prepare srv token).Uses P := by
  unfold prepare
  split
  · exact Program.uses_pure
  · exact Program.uses_perform.mpr (h _)

theorem uses_dependencyState (hping : P (.query .ping)) (hvault : P (.query .vaultReady)) :
    dependencyState.Uses P :=
  uses_call hping fun _ => uses_call hvault fun _ => Program.uses_pure

variable {κ : Type} {k : κ} {C : Contract Op Op.Answer κ} {R : κ → Response → Prop}

theorem meets_call {op : Op} {next : Option op.Answer → Prog α} {Q : κ → α → Prop}
    (h : C.allowed k op) (hnext : ∀ answer, (∀ a ∈ answer, C.possible op a) →
      (next answer).Meets C Q (C.learn k op answer)) : (perform op >>= next).Meets C Q k :=
  Program.meets_bind.mpr ⟨h, hnext⟩

theorem meets_withSome {p : Prog (Option α)} {failed : Response} {next : α → Prog Response}
    {Q : κ → Option α → Prop} (h : p.Meets C Q k) (hfailed : ∀ k, Q k none → R k failed)
    (hnext : ∀ k a, Q k (some a) → (next a).Meets C R k) :
    (withSome p failed next).Meets C R k := by
  refine h.bind fun k found hfound => ?_
  cases found with
  | none => exact hfailed k hfound
  | some a => exact hnext k a hfound

theorem meets_withOk {p : Prog (Except ε α)} {failed : ε → Response} {next : α → Prog Response}
    {Q : κ → Except ε α → Prop} (h : p.Meets C Q k)
    (hfailed : ∀ k e, Q k (.error e) → R k (failed e))
    (hnext : ∀ k a, Q k (.ok a) → (next a).Meets C R k) :
    (withOk p failed next).Meets C R k := by
  refine h.bind fun k found hfound => ?_
  cases found with
  | error e => exact hfailed k e hfound
  | ok a => exact hnext k a hfound

theorem meets_decodeJSON {kind : BodyKind} {next : kind.Body → Prog Response}
    (hfailed : ∀ code message status, 400 ≤ status → R k (writeError code message status))
    (hnext : ∀ body, r.decode kind = .ok body → (next body).Meets C R k) :
    (decodeJSON r kind next).Meets C R k := by
  unfold decodeJSON
  split
  · exact hfailed _ _ _ (by decide)
  · exact hfailed _ _ _ (by decide)
  · exact hfailed _ _ _ (by decide)
  · next body hbody => exact hnext body hbody

end

end SecureShare.Handlers
