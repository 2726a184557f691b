import SecureShare.Handlers.Response

/-!
# The pages

The handlers that answer with a page. They only read; a query that fails leaves a part of
the page empty.
-/
namespace SecureShare.Handlers
open Go Library Http
open Auth (Session)

/-- `strings.TrimPrefix` -/
def trimPrefix (s start : Text) : Text := if start.isPrefixOf s then s.drop start.length else s

section
variable (srv : Server) (r : Request)

def atPath (path : String) (next : Prog Response) : Prog Response :=
  if r.path = path.toList then next else pure .notFound

def handleRoot : Prog Response :=
  if r.path ≠ "/".toList then pageNotFound srv r else pure (.redirect 302 "/admin".toList)

def handleLoginPage : Prog Response :=
  if r.method ≠ .get then pure methodNotAllowed
  else
    withSome (fromRequest srv r) (.page 200 "login.html".toList) fun _ =>
      pure (.redirect 303 "/admin".toList)

/-- A page with the rows of a query. -/
def queryPage (permission : String) (q : Query) (template : String) : Prog Response :=
  withPage srv r permission.toList fun _ => do
    let _ ← perform (.query q)
    render srv r template

/-- A page that shows nothing from the database. -/
def formPage (permission template : String) : Prog Response :=
  withPage srv r permission.toList fun _ => render srv r template

def handleAdmin : Prog Response :=
  if r.path ≠ "/admin".toList then pageNotFound srv r
  else
    withPage srv r "dashboard:read".toList fun _ => do
      let _ ← perform (.query .dashboard)
      dependencyState
      render srv r "admin.html"

def handleNewSecretPage : Prog Response := formPage srv r "secret:create" "new_secret.html"

def handleSecretListPage : Prog Response :=
  atPath r "/admin/secrets" (queryPage srv r "secret:read-metadata" .listLinks "secret_list.html")

def handleSecretPage : Prog Response :=
  withPage srv r "secret:read-metadata".toList fun _ =>
    match srv.parseUUID (trimPrefix r.path "/admin/secrets/".toList) with
    | none => renderPageError srv r 404
    | some id => do
      let row ← perform (.metadata id)
      if row.join.isNone then renderPageError srv r 404
      else do
        let _ ← perform (.query .recentActivity)
        render srv r "secret_detail.html"

def handleStatusPage : Prog Response :=
  if r.path ≠ "/admin/status".toList ∧ r.path ≠ "/admin/system".toList then renderPageError srv r 404
  else
    withPage srv r "system:read".toList fun _ => do
      let _ ← perform (.query .dashboard)
      dependencyState
      render srv r "status.html"

def handleHelpPage : Prog Response := formPage srv r "api-docs:read" "help.html"

/-- Goes on where the documents may be seen. -/
def withDocs (refused : Response) (next : Prog Response) : Prog Response :=
  if srv.settings.openAPIPublic then next
  else
    withSome (fromRequest srv r) refused fun session =>
      if "api-docs:read".toList ∈ session.permissions then next else pure refused

def handleDocsPage : Prog Response :=
  atPath r "/docs" <|
    if r.method ≠ .get then pure methodNotAllowed
    else if srv.settings.swaggerUIEnabled then
      withDocs srv r (.redirect 302 "/login".toList) <|
        withSome (fromRequest srv r) (.page 200 "docs.html".toList) fun _ =>
          render srv r "docs.html"
    else pure .notFound

def handleOpenAPISpec : Prog Response :=
  if r.method ≠ .get then pure methodNotAllowed else withDocs srv r unauthorized (pure .file)

def handleUsersPage : Prog Response :=
  atPath r "/admin/users" (queryPage srv r "user:manage" .listUsers "users.html")

def handleNewUserPage : Prog Response := formPage srv r "user:manage" "user_new.html"

def handleUserDetailPage : Prog Response :=
  withPage srv r "user:manage".toList fun _ =>
    match srv.parseUUID (trimPrefix r.path "/admin/users/".toList) with
    | none => renderPageError srv r 404
    | some id => do
      let user ← perform (.userByID id)
      if user.isNone then renderPageError srv r 404 else render srv r "user_detail.html"

def handleAccountPage : Prog Response :=
  withPage srv r "account:manage".toList fun session => do
    let _ ← perform (.query (.listSessions session.userID))
    render srv r "account.html"

def handleEmailSettingsPage : Prog Response :=
  atPath r "/admin/settings/email" <|
    withPage srv r "email-settings:manage".toList fun _ => do
      let _ ← safeEmailSettings
      render srv r "email_settings.html"

def handlePublicExperiencePage : Prog Response :=
  atPath r "/admin/settings/public-experience" <|
    withPage srv r "public-experience:manage".toList fun _ => do
      let settings ← currentPublicSettings
      if settings.isNone then renderPageError srv r 500 else render srv r "public_experience.html"

def handlePublicExperiencePreview : Prog Response :=
  if r.path ≠ "/admin/settings/public-experience/preview".toList ∨ r.method ≠ .get then
    pure .notFound
  else
    withPage srv r "public-experience:manage".toList fun _ =>
      match PublicExperience.validLocale (r.query "locale".toList) with
      | some _ => pure (.page 200 "recipient.html".toList)
      | none => do
        let settings ← currentPublicSettings
        if settings.isNone then renderPageError srv r 500
        else pure (.page 200 "recipient.html".toList)

def handleAPIClientsPage : Prog Response :=
  atPath r "/admin/api-clients" (queryPage srv r "api-client:manage" .listAPIClients "api_clients.html")

def handleNewAPIClientPage : Prog Response := formPage srv r "api-client:manage" "api_client_new.html"

def handleAPIClientDetailPage : Prog Response :=
  withPage srv r "api-client:manage".toList fun _ =>
    match srv.parseUUID (trimPrefix r.path "/admin/api-clients/".toList) with
    | none => renderPageError srv r 404
    | some id => do
      let client ← perform (.apiClientByID id)
      if client.isNone then renderPageError srv r 404 else render srv r "api_client_detail.html"

/-- If the settings cannot be read, the defaults are used. -/
def handleRecipientPage : Prog Response :=
  if r.method ≠ .get then pure methodNotAllowed
  else do
    let _ ← currentPublicSettings
    pure (.page 200 "recipient.html".toList)

def handleErrorPage : Prog Response := do
  let _ ← fromRequest srv r
  pure (.page 500 "error.html".toList)

end

end SecureShare.Handlers
