import SecureShare.Email.Preflight
import SecureShare.Handlers.Accounts
import SecureShare.Handlers.Administration
import SecureShare.Http.RateLimit

/-!
# Links

The handlers of the API for links: creating one, with the email that is sent in it, managing
one, and the two that recipients call.
-/
namespace SecureShare.Handlers
open Go Library Http
open Auth (Actor)
open Delivery (UUID CreateResponse storable)
open Email (TemplateSource)

/-- The body of a create request, as the plan of its email reads it. -/
def linkRequest (body : CreateLinkBody) : CreateLinkRequest :=
  { body.request with
    delivery := body.email.map fun e => some
      ⟨e.send, e.toAddress, e.recipientName, e.useDefaultTemplate, e.subject, e.message⟩
    sendEmail := body.sendEmail
    recipientEmail := body.recipientEmail }

/-- The key of the two limits that count by token. -/
def tokenKey (srv : Server) (owner token : Text) : Text :=
  match srv.deps.tokenHMAC srv.cfg.tokenHMACPepper token with
  | none => owner ++ ":missing".toList
  | some hash => owner ++ ":".toList ++ rawURLEncode (hash.take 12)

def failedEmailResult (toAddress : Text) (category : Email.Category)
    (source : Option TemplateSource) : EmailDeliveryResult where
  requested := true
  status := .failed
  errorCode := category.text
  toAddress := toAddress
  templateSource := source

section
variable (srv : Server) (r : Request)

def emailActorAllowed (actor : Actor) : Bool :=
  "email:send".toList ∈ actor.permissions &&
    !(actor.role = some .developer && !srv.settings.developerEmailDeliveryEnabled)

/-- The checks of `preflightEmailDelivery` on the settings. -/
def preflightSettings (now : ℤ) (settings : Email.Settings) (plan : EmailDeliveryPlan)
    (title : Text) (expiresAt : ℤ) : Except PreflightError Unit :=
  if settings.enabled = false ∨ settings.smtpHost = [] ∨ settings.smtpPort = 0 ∨
      settings.fromEmail = [] then .error .notConfigured
  else if srv.cfg.appEnv = "production".toList ∧ settings.encryptionMode = "none".toList then
    .error .notConfigured
  else
    match srv.email.render settings (emailOverride plan) (emailTemplateContext srv.email.untilText
      now settings plan title (srv.cfg.appBaseURL ++ "/s#preview-token-not-real".toList)
      expiresAt) with
    | none => .error .invalid
    | some _ => .ok ()

def preflightEmailDelivery (plan : EmailDeliveryPlan) (title : Text) (expiresAt : ℤ) :
    Prog (Except PreflightError Unit) :=
  if trimSpace plan.toAddress = [] ∨ srv.email.parseAddress (trimSpace plan.toAddress) = false then
    pure (.error .invalid)
  else do
    match ← safeEmailSettings with
    | none => pure (.error .notConfigured)
    | some settings => do
      let now ← perform .now
      pure (preflightSettings srv (now.getD 0) settings plan title expiresAt)

def writeEmailDeliveryPreflightError : PreflightError → Response
  | .notConfigured =>
    writeError .emailDeliveryNotConfigured "Email delivery is not configured or enabled." 422
  | .invalid => writeError .invalidRequest "Invalid request." 422

/-- The name of an event of a first email or of another one. -/
def emailEvent (retry : Bool) (outcome : String) : String :=
  if retry then "email.delivery_retry_" ++ outcome else "email.delivery_" ++ outcome

/-- The part of `sendCreatedEmail` after the message has been rendered. -/
def sendMessage (actor : Actor) (plan : EmailDeliveryPlan) (retry : Bool) (source : TemplateSource) :
    Prog EmailDeliveryResult := do
  recordEmailAudit srv r actor (emailEvent retry "requested") "requested".toList
  if source = .perDelivery then
    recordEmailAudit srv r actor "email.template_override_used" "success".toList
  match ← sendRendered srv plan.toAddress with
  | none => do
    let sentAt ← perform .now
    recordEmailAudit srv r actor (emailEvent retry "succeeded") "sent".toList
    pure
      { requested := true
        status := .sent
        toAddress := plan.toAddress
        sentAt := sentAt
        templateSource := some source }
  | some category => do
    recordEmailAudit srv r actor (emailEvent retry "failed") category.text
    pure (failedEmailResult plan.toAddress category (some source))

def sendCreatedEmail (actor : Actor) (title : Text) (link : CreateResponse)
    (plan : EmailDeliveryPlan) (retry : Bool) : Prog EmailDeliveryResult := do
  match ← safeEmailSettings with
  | none => pure (failedEmailResult plan.toAddress .configurationError none)
  | some settings => do
    let now ← perform .now
    match srv.email.render settings (emailOverride plan) (emailTemplateContext srv.email.untilText
      (now.getD 0) settings plan title link.url link.expiresAt) with
    | none => pure (failedEmailResult plan.toAddress .configurationError none)
    | some rendered => sendMessage srv r actor plan retry rendered.templateSource

/-- The part of `handleSecretLinks` that creates the link. -/
def createLink (actor : Actor) (body : CreateLinkBody) : Prog Response :=
  withOk (create srv actor.actorID body.request) writeDeliveryError fun link =>
    let plan := emailDeliveryFromCreate (linkRequest body)
    if plan.requested then do
      let email ← sendCreatedEmail srv r actor body.request.title link plan false
      pure (.json 201 (.created link email))
    else pure (.json 201 (.created link { requested := false, status := .notRequested }))

/-- The checks of a create request that asks for an email. -/
def checkEmail (actor : Actor) (body : CreateLinkBody) (plan : EmailDeliveryPlan) :
    Prog Response :=
  if emailActorAllowed srv actor then
    withLimit .emailSend actor.actorID rateLimited do
      let now ← perform .now
      withOk (preflightEmailDelivery srv plan body.request.title
          (now.getD 0 + srv.cfg.defaultSecretTTL.toInt))
        writeEmailDeliveryPreflightError fun _ => createLink srv r actor body
  else pure forbidden

/-- `handleSecretLinks` for POST. -/
def postSecretLinks : Prog Response :=
  withActor srv r "secret:create".toList fun actor =>
    withLimit .create actor.actorID rateLimited <|
      decodeJSON r .createLink fun body =>
        let plan := emailDeliveryFromCreate (linkRequest body)
        if plan.requested then checkEmail srv r actor body plan else createLink srv r actor body

def handleSecretLinks : Prog Response :=
  atPath r "/api/v1/secret-links" <|
    if r.method = .get then
      withActor srv r "secret:read-metadata".toList fun _ =>
        withSome (perform (.query .listLinks)) (writeDeliveryError { kind := .internal }) fun _ =>
          pure (.json 200 (.rows .listLinks))
    else if r.method ≠ .post then pure methodNotAllowed
    else postSecretLinks srv r

/-- `handleSecretLinkSendEmail` after its limit. -/
def resendEmail (actor : Actor) (body : SendEmailBody) : Prog Response :=
  withSome (prepare srv body.token) (writeDeliveryError { kind := .secretUnavailable })
    fun prepared =>
      if prepared.mayAttempt then do
        let now ← perform .now
        let expiresAt := (prepared.expiresAt.map (· * 1000)).getD
          (now.getD 0 + srv.cfg.defaultSecretTTL.toInt)
        let plan : EmailDeliveryPlan :=
          ⟨true, body.toAddress, body.recipientName, body.useDefaultTemplate, body.subject,
            body.message⟩
        let link : CreateResponse := ⟨0, srv.cfg.appBaseURL ++ "/s#".toList ++ body.token, expiresAt⟩
        withOk (preflightEmailDelivery srv plan [] expiresAt) writeEmailDeliveryPreflightError
          fun _ => do
            let email ← sendCreatedEmail srv r actor [] link plan true
            pure (.json 200 (.email email))
      else pure (writeDeliveryError { kind := .secretUnavailable })

def handleSecretLinkSendEmail : Prog Response :=
  if r.method ≠ .post then pure methodNotAllowed
  else
    withActor srv r "email:send".toList fun actor =>
      if emailActorAllowed srv actor then
        decodeJSON r .sendEmail fun body =>
          withLimit .emailRetry (tokenKey srv actor.actorID body.token) rateLimited <|
            resendEmail srv r actor body
      else pure forbidden

/-! ### One link -/

def revokeByID (id : UUID) : Prog Response :=
  withActor srv r "secret:revoke".toList fun actor =>
    withSome (revoke id actor.actorID (srv.hasher.ipHash r.connection) r.requestID)
      (writeDeliveryError { kind := .internal }) fun result => pure (.json 200 (.revoked result))

/-- Goes on with the metadata of a link. -/
def withMetadata (id : UUID) (next : Delivery.Row → Prog Response) : Prog Response :=
  withSome (perform (.metadata id)) (writeDeliveryError { kind := .internal }) fun row =>
    match row with
    | none => pure (writeDeliveryError { kind := .secretUnavailable })
    | some row => next row

/-- Changes the protection of a link. -/
def changeProtection (actor : Actor) (id : UUID) : Prog Response :=
  let ipHash := srv.hasher.ipHash r.connection
  if r.method = .put then
    decodeJSON r .password fun password =>
      withOk (setPasswordProtection id password actor.actorID ipHash r.requestID)
        writeDeliveryError fun result => pure (.json 200 (.protection result))
  else
    withOk (removePasswordProtection id actor.actorID ipHash r.requestID)
      writeDeliveryError fun result => pure (.json 200 (.protection result))

def protectByID (id : UUID) : Prog Response :=
  withActor srv r "secret:manage-protection".toList fun actor =>
    withMetadata id fun row =>
      if canManageProtection actor row.createdBy then changeProtection srv r actor id
      else pure forbidden

def handleSecretLinkByID : Prog Response :=
  if "/prepare".toList <:+ r.path ∨ "/consume".toList <:+ r.path then pure .notFound
  else
    withIDPath srv r "/api/v1/secret-links/" fun id action =>
      if action = [] ∧ r.method = .get then
        withActor srv r "secret:read-metadata".toList fun _ =>
          withMetadata id fun row => pure (.json 200 (.metadata row))
      else if action = "revoke".toList ∧ r.method = .post then revokeByID srv r id
      else if action = "password".toList ∧ (r.method = .put ∨ r.method = .delete) then
        protectByID srv r id
      else pure methodNotAllowed

/-! ### Recipients -/

def handlePrepare : Prog Response :=
  if r.method ≠ .post then pure methodNotAllowed
  else
    withLimit .prepare (srv.hasher.ipHash r.connection) rateLimited <|
      decodeJSON r .prepare fun token =>
        withSome (prepare srv token) (writeDeliveryError { kind := .internal }) fun response =>
          pure (.json 200 (.prepared response))

def handleConsume : Prog Response :=
  if r.method ≠ .post then pure methodNotAllowed
  else
    decodeJSON r .consume fun body =>
      withLimit .consume (tokenKey srv (srv.hasher.ipHash r.connection) body.1) rateLimited <|
        withOk (consume srv body.1 body.2) writeDeliveryError fun response =>
          pure (.json 200 (.consumed response))

end

/-! ### What sending an email calls -/

/-- The types of the records of an email. -/
def emailEvents (retry : Bool) : List String :=
  [emailEvent retry "requested", emailEvent retry "succeeded", emailEvent retry "failed",
    "email.template_override_used"]

theorem storable_category (category : Email.Category) : storable 64 category.text := by
  cases category <;> decide

section
variable {srv : Server} {r : Request} {P : Op → Prop} {actor : Actor} {plan : EmailDeliveryPlan}
  {retry : Bool}

theorem uses_sendMessage {source : TemplateSource} (hget : P .getEmailSettings) (hsmtp : P .smtp)
    (hnow : P .now) (hrecord : ∀ type ∈ emailEvents retry, ∀ result, storable 64 result →
      (recordEmailAudit srv r actor type result).Uses P) :
    (sendMessage srv r actor plan retry source).Uses P := by
  have hsent : (do
      match ← sendRendered srv plan.toAddress with
      | none => do
        let sentAt ← perform .now
        recordEmailAudit srv r actor (emailEvent retry "succeeded") "sent".toList
        pure
          { requested := true
            status := .sent
            toAddress := plan.toAddress
            sentAt := sentAt
            templateSource := some source }
      | some category => do
        recordEmailAudit srv r actor (emailEvent retry "failed") category.text
        pure (failedEmailResult plan.toAddress category (some source)) :
      Prog EmailDeliveryResult).Uses P := by
    refine (uses_sendWith hget hsmtp).bind fun failure => ?_
    cases failure with
    | none =>
        exact uses_call hnow fun _ =>
          (hrecord _ (by simp [emailEvents]) _ (by decide)).bind fun _ => Program.uses_pure
    | some category =>
        exact (hrecord _ (by simp [emailEvents]) _ (storable_category category)).bind
          fun _ => Program.uses_pure
  refine (hrecord _ (by simp [emailEvents]) _ (by decide)).bind fun _ => ?_
  split_ifs
  · exact (hrecord _ (by simp [emailEvents]) _ (by decide)).bind fun _ => hsent
  · exact hsent

theorem uses_sendCreatedEmail {title : Text} {link : CreateResponse} (hget : P .getEmailSettings)
    (hsmtp : P .smtp) (hnow : P .now) (hrecord : ∀ type ∈ emailEvents retry, ∀ result,
      storable 64 result → (recordEmailAudit srv r actor type result).Uses P) :
    (sendCreatedEmail srv r actor title link plan retry).Uses P := by
  refine (uses_safeEmailSettings hget).bind fun settings => ?_
  cases settings with
  | none => exact Program.uses_pure
  | some settings =>
      refine uses_call hnow fun now => ?_
      split
      · exact Program.uses_pure
      · exact uses_sendMessage hget hsmtp hnow hrecord

theorem uses_preflightEmailDelivery {title : Text} {expiresAt : ℤ} (hget : P .getEmailSettings)
    (hnow : P .now) : (preflightEmailDelivery srv plan title expiresAt).Uses P := by
  unfold preflightEmailDelivery
  split_ifs
  · exact Program.uses_pure
  · refine (uses_safeEmailSettings hget).bind fun settings => ?_
    cases settings with
    | none => exact Program.uses_pure
    | some settings => exact uses_call hnow fun _ => Program.uses_pure

end

end SecureShare.Handlers
