import SecureShare.Handlers.Pages

/-!
# Administration

The handlers of the API for the dashboard, the cleanup and the two settings, and those that
say whether the server is up.
-/
namespace SecureShare.Handlers
open Go Http
open Auth (Session Actor)

section
variable (srv : Server) (r : Request)

def handleDashboardAPI : Prog Response :=
  if r.method ≠ .get then pure methodNotAllowed
  else
    withActor srv r "secret:read-metadata".toList fun _ =>
      withSome (perform (.query .dashboard)) (writeDeliveryError { kind := .internal }) fun _ => do
        dependencyState
        pure (.json 200 (.rows .dashboard))

def handleManualCleanup : Prog Response :=
  if r.method ≠ .post then pure methodNotAllowed
  else
    withActor srv r "system:cleanup".toList fun actor =>
      withSome (perform .cleanup) (writeDeliveryError { kind := .internal }) fun result => do
        auditRequest srv r actor.actorID "secret.expired" "manual_cleanup"
        pure (.json 200 (.cleanup result))

/-! ### Email -/

def recordEmailAudit (actor : Actor) (type : String) (result : Text) : Prog Unit :=
  recordAudit (requestRecord srv r actor.actorID type.toList result)

def updateEmailSettings (actor : Actor) : Prog Response :=
  decodeJSON r .emailSettings fun req =>
    withOk (updateEmail srv actor.userID req) writeEmailError fun result => do
      recordEmailAudit srv r actor "email.settings_updated" "success".toList
      if result.passwordUpdated then
        recordEmailAudit srv r actor "email.password_updated" "success".toList
      if result.passwordCleared then
        recordEmailAudit srv r actor "email.password_cleared" "success".toList
      pure (.json 200 (.emailSettings result.settings))

def handleEmailSettingsAPI : Prog Response :=
  atPath r "/api/v1/settings/email" <|
    withActor srv r "email-settings:manage".toList fun actor =>
      match r.method with
      | .get =>
        withSome safeEmailSettings internalError fun settings =>
          pure (.json 200 (.emailSettings settings))
      | .put => updateEmailSettings srv r actor
      | _ => pure methodNotAllowed

/-- A test of the mail server, with its audit record. -/
def answerTest (actor : Actor) (test : Prog (Option Email.Category)) (type : String) :
    Prog Response := do
  match ← test with
  | none => do
    recordEmailAudit srv r actor (type ++ "_succeeded") "success".toList
    pure (.json 200 (.tested none))
  | some category => do
    recordEmailAudit srv r actor (type ++ "_failed") category.text
    pure (.json 200 (.tested (some category)))

/-- `fakePreviewContext` -/
def fakePreviewContext : Email.TemplateContext where
  secureLink := "https://example.local/s#preview-token-not-real".toList
  secretTitle := "Example access package".toList
  recipientName := "Recipient Name".toList
  recipientEmail := "recipient@example.local".toList
  senderName := "SecureShare Admin".toList
  expiresAt := 1784635200000000000
  expiresIn := "24 hours".toList
  productName := "SecureShare".toList
  supportEmail := "support@example.local".toList

/-- If the settings cannot be read, the defaults are used. -/
def previewTemplate : Prog Response :=
  decodeJSON r .preview fun override => do
    let settings := (← safeEmailSettings).getD (Email.safeSettings Email.defaultStoredSettings)
    match srv.email.render settings (some override) fakePreviewContext with
    | none => pure (writeEmailError .invalid)
    | some rendered => pure (.json 200 (.preview rendered))

def switchEmail (actor : Actor) (enabled : Bool) (type : String) : Prog Response :=
  withOk (setEmailEnabled srv actor.userID enabled) writeEmailError fun settings => do
    recordEmailAudit srv r actor type "success".toList
    pure (.json 200 (.emailSettings settings))

def handleEmailSettingsActionAPI : Prog Response :=
  withActor srv r "email-settings:manage".toList fun actor =>
    let action := trimPrefix r.path "/api/v1/settings/email/".toList
    if action = "test-connection".toList ∧ r.method = .post then
      answerTest srv r actor (testConnection srv) "email.connection_test"
    else if action = "send-test".toList ∧ r.method = .post then
      withLimit .emailTest actor.actorID rateLimited <|
        decodeJSON r .sendTest fun recipient =>
          answerTest srv r actor (sendTest srv recipient) "email.test_delivery"
    else if action = "template-preview".toList ∧ r.method = .post then previewTemplate srv r
    else if action = "enable".toList ∧ r.method = .post then
      switchEmail srv r actor true "email.enabled"
    else if action = "disable".toList ∧ r.method = .post then
      switchEmail srv r actor false "email.disabled"
    else pure methodNotAllowed

/-! ### The public experience -/

def updateLocale (session : Session) : Prog Response :=
  decodeJSON r .locale fun locale =>
    withOk (updatePublicSettings srv session.userID locale)
      (fun invalid => if invalid then writeError .invalidRequest "Public locale must be en or fa." 400
        else internalError) fun settings => do
      recordAudit (requestRecord srv r session.actorID "application.public_locale_updated".toList
        settings.publicLocale.text)
      pure (.json 200 (.publicSettings settings))

def handlePublicExperienceAPI : Prog Response :=
  atPath r "/api/v1/settings/public-experience" <|
    withSession srv r fun session =>
      if "public-experience:manage".toList ∉ session.permissions then pure forbidden
      else
        match r.method with
        | .get =>
          withSome currentPublicSettings internalError fun settings =>
            pure (.json 200 (.publicSettings settings))
        | .put => if srv.validCSRF r session then updateLocale srv r session else pure forbidden
        | _ => pure methodNotAllowed

/-! ### Health -/

def handleLive : Prog Response := pure (.json 200 (.status "ok".toList))

def handleReady : Prog Response :=
  withSome (perform (.query .ping)) dependencyUnavailable fun _ =>
    withSome (perform (.query .vaultReady)) dependencyUnavailable fun _ =>
      pure (.json 200 (.status "ready".toList))

def handleVersion : Prog Response :=
  if r.method ≠ .get then pure methodNotAllowed else pure (.json 200 .version)

end

end SecureShare.Handlers
