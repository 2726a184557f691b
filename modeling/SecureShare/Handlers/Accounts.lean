import SecureShare.Auth.MemoryStore
import SecureShare.Handlers.Pages
import SecureShare.Http.LoginThrottle

/-!
# Accounts

The handlers of the API for logging in and out, for the own account, and for users and API
clients.
-/
namespace SecureShare.Handlers
open Go Http
open Auth (Session User Actor APIClient UserStatus APIClientStatus validUserPassword normalizeLogin)
open Delivery (UUID)

section
variable (srv : Server) (r : Request)

/-- What was typed to log in, and whether it came as JSON. -/
def withLogin (next : Bool → Text → Text → Prog Response) : Prog Response :=
  if Config.contains r.contentType "application/json".toList then
    decodeJSON r .login fun body => next true (LoginBody.typed body) body.password
  else if r.formParses then
    let login := r.form "login".toList
    next false (if login = [] then r.form "username".toList else login) (r.form "password".toList)
  else pure invalidRequest

/-- The session of a user who has logged in. -/
def startSession (user : User) (isJSON : Bool) : Prog Response := do
  destroy srv r
  withSome (perform (.createSession user)) internalError fun session => do
    let _ ← perform (.touchLastLogin user.id)
    auditRequest srv r user.username "auth.login_succeeded" "success"
    pure <|
      if isJSON then .json 200 (.loggedIn user.username user.role (srv.manager.csrfToken session))
      else .redirect 303 "/admin".toList

def handleLogin : Prog Response :=
  if r.method ≠ .post then pure methodNotAllowed
  else
    withLogin r fun isJSON login password =>
      withLimit .login
        (srv.hasher.ipHash r.connection ++ ":".toList ++ normalizeLogin srv.fns login)
        (writeError .rateLimited "Too many attempts. Try again later." 429) do
          match ← authenticate srv login password with
          | .unavailable => pure dependencyUnavailable
          | .rejected => do
            auditRequest srv r [] "auth.login_failed" "unauthorized"
            pure unauthorized
          | .accepted user => startSession srv r user isJSON

def endSession (session : Session) (response : Response) : Prog Response := do
  auditRequest srv r session.username "auth.logout" "success"
  destroy srv r
  pure response

def handleLogout : Prog Response :=
  if r.method ≠ .post then pure methodNotAllowed
  else if srv.acceptsBearer r then pure (.json 200 .ok)
  else
    withSession srv r fun session =>
      if srv.validCSRF r session then endSession srv r session (.json 200 .ok) else pure forbidden

def handleBrowserLogout : Prog Response :=
  if r.method ≠ .post then pure methodNotAllowed
  else
    withSome (fromRequest srv r) (.redirect 303 "/login".toList) fun session =>
      if srv.validCSRF r session then
        endSession srv r session (.redirect 303 "/login".toList)
      else pure forbidden

def handleMe : Prog Response :=
  if r.method ≠ .get then pure methodNotAllowed
  else withSession srv r fun session => pure (.json 200 (.me session))

/-- The theme is one of three in any case. -/
def changeTheme (session : Session) : Prog Response :=
  decodeJSON r .theme fun theme =>
    match Auth.validThemePreference (trimSpace (srv.fns.toLower theme)) with
    | none => pure (writeError .invalidRequest "Theme must be system, light, or dark." 400)
    | some theme =>
      withSome (perform (.setThemePreference session.userID theme)) internalError fun user =>
        pure (.json 200 (.theme user.themePreference))

def handleThemePreference : Prog Response :=
  withSession srv r fun session =>
    if "account:manage".toList ∉ session.permissions then pure unauthorized
    else if r.method = .get then pure (.json 200 (.theme session.themePreference))
    else if r.method ≠ .put then pure methodNotAllowed
    else if srv.validCSRF r session then changeTheme srv r session
    else pure forbidden

/-- `ValidateUserPassword`, as the handlers call it. -/
def acceptablePassword (password : Text) : Bool :=
  validUserPassword password (srv.cfg.appEnv ≠ "development".toList)

/-- The part of `handleChangePassword` after the check of the current password. -/
def changePassword (actor : Actor) (user : User) (password : Text) : Prog Response :=
  withSome (perform (.setPassword actor.userID password false)) internalError fun _ => do
    let _ ← perform (.revokeOtherSessions actor.userID (srv.manager.tokenHash actor.token))
    destroy srv r
    withSome (perform (.createSession user)) internalError fun session => do
      auditRequest srv r actor.username "auth.password_changed" "success"
      pure (.json 200 (.csrfToken (srv.manager.csrfToken session)))

def handleChangePassword : Prog Response :=
  if r.method ≠ .post then pure methodNotAllowed
  else
    withActor srv r "account:manage".toList fun actor =>
      decodeJSON r .changePassword fun body => do
        match ← authenticate srv actor.username body.1 with
        | .unavailable => pure dependencyUnavailable
        | .rejected => pure unauthorized
        | .accepted user =>
          if user.id ≠ actor.userID then pure unauthorized
          else if acceptablePassword srv body.2 then changePassword srv r actor user body.2
          else pure invalidRequest

def handleMySessions : Prog Response :=
  if r.method ≠ .get then pure methodNotAllowed
  else
    withSession srv r fun session =>
      withSome (perform (.query (.listSessions session.userID))) internalError fun _ =>
        pure (.json 200 (.rows (.listSessions session.userID)))

def handleRevokeOtherSessions : Prog Response :=
  if r.method ≠ .post then pure methodNotAllowed
  else
    withActor srv r "account:manage".toList fun actor =>
      withSome (perform (.revokeOtherSessions actor.userID (srv.manager.tokenHash actor.token)))
        internalError fun _ => do
          auditRequest srv r actor.username "session.revoked" "other_sessions"
          pure (.json 200 .ok)

/-! ### Users -/

/-- The rows of a query. -/
def answerQuery (q : Query) : Prog Response :=
  withSome (perform (.query q)) internalError fun _ => pure (.json 200 (.rows q))

def createUser (actor : Actor) : Prog Response :=
  decodeJSON r .createUser fun params =>
    if acceptablePassword srv params.password then
      withSome (perform (.createUser params)) invalidRequest fun user => do
        auditRequest srv r actor.actorID "user.created" "success"
        pure (.json 201 (.user user))
    else pure invalidRequest

def handleUsersAPI : Prog Response :=
  atPath r "/api/v1/users" <|
    withActor srv r "user:manage".toList fun actor =>
      match r.method with
      | .get => answerQuery .listUsers
      | .post => createUser srv r actor
      | _ => pure methodNotAllowed

/-- A change of a user, with its audit record. -/
def changeUser (actor : Actor) (change : Prog (Option User)) (type : String) : Prog Response :=
  withSome change invalidRequest fun user => do
    auditRequest srv r actor.actorID type "success"
    pure (.json 200 (.user user))

def resetPassword (actor : Actor) (id : UUID) : Prog Response :=
  decodeJSON r .resetPassword fun body =>
    if acceptablePassword srv body.1 then
      withSome (perform (.setPassword id body.1 body.2)) internalError fun _ => do
        auditRequest srv r actor.actorID "user.password_reset" "success"
        pure (.json 200 .ok)
    else pure invalidRequest

/-- The parts of a path on both sides of the first slash. -/
def cutSlash (path : Text) : Text × Text :=
  (path.takeWhile (· ≠ '/'), (path.dropWhile (· ≠ '/')).tail)

/-- Goes on with the ID and the action that the path names. -/
def withIDPath (start : String) (next : UUID → Text → Prog Response) : Prog Response :=
  let parts := cutSlash (trimPrefix r.path start.toList)
  match srv.parseUUID parts.1 with
  | none => pure invalidRequest
  | some id => next id parts.2

def handleUserAPI : Prog Response :=
  withActor srv r "user:manage".toList fun actor =>
    withIDPath srv r "/api/v1/users/" fun id action =>
      if action = [] ∧ r.method = .get then
        withSome (perform (.userByID id)) invalidRequest fun user => pure (.json 200 (.user user))
      else if action = [] ∧ r.method = .patch then
        decodeJSON r .patchUser fun patch =>
          changeUser srv r actor (updateUser srv id patch) "user.updated"
      else if action = "reset-password".toList ∧ r.method = .post then
        resetPassword srv r actor id
      else if action = "disable".toList ∧ r.method = .post then
        changeUser srv r actor (setUserStatus srv id .disabled) "user.disabled"
      else if action = "enable".toList ∧ r.method = .post then
        changeUser srv r actor (setUserStatus srv id .active) "user.enabled"
      else pure methodNotAllowed

/-! ### API clients -/

/-- `parseOptionalRFC3339`; `none` is an error. -/
def parseOptionalRFC3339 (value : Text) : Option (Option ℤ) :=
  if trimSpace value = [] then some none else (srv.parseRFC3339 (trimSpace value)).map some

def createClient (actor : Actor) : Prog Response :=
  decodeJSON r .createClient fun body =>
    match parseOptionalRFC3339 srv body.expiresAt with
    | none => pure invalidRequest
    | some expiresAt =>
      let owner := if actor.userID = 0 then none else some actor.userID
      withSome (perform (.createAPIClient ⟨body.name, owner, body.scopes, expiresAt⟩))
        invalidRequest fun issued => do
          auditRequest srv r actor.actorID "api_client.created" "success"
          pure (.json 201 (.issuedClient issued.1 issued.2))

def handleAPIClientsAPI : Prog Response :=
  atPath r "/api/v1/api-clients" <|
    withActor srv r "api-client:manage".toList fun actor =>
      match r.method with
      | .get => answerQuery .listAPIClients
      | .post => createClient srv r actor
      | _ => pure methodNotAllowed

def setClientStatus (actor : Actor) (id : UUID) (status : APIClientStatus) (type : String) :
    Prog Response :=
  withSome (perform (.setAPIClientStatus id status)) invalidRequest fun client => do
    auditRequest srv r actor.actorID type "success"
    pure (.json 200 (.client client))

/-- Goes on with a client that is not revoked. -/
def withClient (id : UUID) (next : APIClient → Prog Response) : Prog Response :=
  withSome (perform (.apiClientByID id)) invalidRequest fun current =>
    if current.status = .revoked then pure invalidRequest else next current

def rotateSecret (actor : Actor) (id : UUID) (current : APIClient) : Prog Response :=
  withSome (perform (.rotateAPIClientSecret id current.clientID)) invalidRequest fun issued => do
    auditRequest srv r actor.actorID "api_client.secret_rotated" "success"
    pure (.json 200 (.issuedClient issued.1 issued.2))

def handleAPIClientAPI : Prog Response :=
  withActor srv r "api-client:manage".toList fun actor =>
    withIDPath srv r "/api/v1/api-clients/" fun id action =>
      if action = [] ∧ r.method = .get then
        withSome (perform (.apiClientByID id)) invalidRequest fun client =>
          pure (.json 200 (.client client))
      else if action = "disable".toList ∧ r.method = .post then
        setClientStatus srv r actor id .disabled "api_client.disabled"
      else if action = "enable".toList ∧ r.method = .post then
        withClient id fun _ => setClientStatus srv r actor id .active "api_client.enabled"
      else if action = "revoke".toList ∧ r.method = .post then
        setClientStatus srv r actor id .revoked "api_client.revoked"
      else if action = "rotate-secret".toList ∧ r.method = .post then
        withClient id fun current => rotateSecret srv r actor id current
      else pure methodNotAllowed

end

end SecureShare.Handlers
