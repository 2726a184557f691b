import SecureShare.Handlers.Links

/-!
# Routes

Which handler serves which path. A pattern that ends with a slash stands for all paths below
it; of several patterns that match, the longest is chosen.
-/
namespace SecureShare.Handlers
open Go Http

structure Route where
  pattern : Text
  handler : Prog Response

def Route.matches (route : Route) (path : Text) : Bool :=
  if route.pattern.getLast? = some '/' then route.pattern.isPrefixOf path
  else route.pattern = path

/-- The route with the longest pattern. -/
@[grind =] def longest : List Route → Option Route
  | [] => none
  | route :: routes =>
    match longest routes with
    | none => some route
    | some other =>
      if route.pattern.length < other.pattern.length then some other else some route

section
variable (srv : Server) (r : Request)

/-- A file of the directory. -/
def serveStatic : Prog Response := pure .file

/-- `Handler` -/
def routes : List Route :=
  [⟨"/static/".toList, serveStatic⟩,
    ⟨"/favicon.ico".toList, pure (.redirect 307 "/static/swagger-ui/favicon-32x32.png".toList)⟩,
    ⟨"/".toList, handleRoot srv r⟩,
    ⟨"/docs".toList, handleDocsPage srv r⟩,
    ⟨"/openapi.yaml".toList, handleOpenAPISpec srv r⟩,
    ⟨"/login".toList, handleLoginPage srv r⟩,
    ⟨"/logout".toList, handleBrowserLogout srv r⟩,
    ⟨"/admin".toList, handleAdmin srv r⟩,
    ⟨"/admin/secrets".toList, handleSecretListPage srv r⟩,
    ⟨"/admin/secrets/new".toList, handleNewSecretPage srv r⟩,
    ⟨"/admin/secrets/".toList, handleSecretPage srv r⟩,
    ⟨"/admin/status".toList, handleStatusPage srv r⟩,
    ⟨"/admin/system".toList, handleStatusPage srv r⟩,
    ⟨"/admin/help".toList, handleHelpPage srv r⟩,
    ⟨"/admin/users".toList, handleUsersPage srv r⟩,
    ⟨"/admin/users/new".toList, handleNewUserPage srv r⟩,
    ⟨"/admin/users/".toList, handleUserDetailPage srv r⟩,
    ⟨"/admin/account".toList, handleAccountPage srv r⟩,
    ⟨"/admin/settings/email".toList, handleEmailSettingsPage srv r⟩,
    ⟨"/admin/settings/public-experience".toList, handlePublicExperiencePage srv r⟩,
    ⟨"/admin/settings/public-experience/preview".toList, handlePublicExperiencePreview srv r⟩,
    ⟨"/admin/api-clients".toList, handleAPIClientsPage srv r⟩,
    ⟨"/admin/api-clients/new".toList, handleNewAPIClientPage srv r⟩,
    ⟨"/admin/api-clients/".toList, handleAPIClientDetailPage srv r⟩,
    ⟨"/s".toList, handleRecipientPage r⟩,
    ⟨"/error".toList, handleErrorPage srv r⟩,
    ⟨"/api/v1/auth/login".toList, handleLogin srv r⟩,
    ⟨"/api/v1/auth/logout".toList, handleLogout srv r⟩,
    ⟨"/api/v1/me".toList, handleMe srv r⟩,
    ⟨"/api/v1/me/preferences/theme".toList, handleThemePreference srv r⟩,
    ⟨"/api/v1/me/password".toList, handleChangePassword srv r⟩,
    ⟨"/api/v1/me/sessions".toList, handleMySessions srv r⟩,
    ⟨"/api/v1/me/sessions/revoke-other".toList, handleRevokeOtherSessions srv r⟩,
    ⟨"/api/v1/dashboard".toList, handleDashboardAPI srv r⟩,
    ⟨"/api/v1/admin/cleanup".toList, handleManualCleanup srv r⟩,
    ⟨"/api/v1/settings/email".toList, handleEmailSettingsAPI srv r⟩,
    ⟨"/api/v1/settings/email/".toList, handleEmailSettingsActionAPI srv r⟩,
    ⟨"/api/v1/settings/public-experience".toList, handlePublicExperienceAPI srv r⟩,
    ⟨"/api/v1/users".toList, handleUsersAPI srv r⟩,
    ⟨"/api/v1/users/".toList, handleUserAPI srv r⟩,
    ⟨"/api/v1/api-clients".toList, handleAPIClientsAPI srv r⟩,
    ⟨"/api/v1/api-clients/".toList, handleAPIClientAPI srv r⟩,
    ⟨"/api/v1/secret-links".toList, handleSecretLinks srv r⟩,
    ⟨"/api/v1/secret-links/send-email".toList, handleSecretLinkSendEmail srv r⟩,
    ⟨"/api/v1/secret-links/".toList, handleSecretLinkByID srv r⟩,
    ⟨"/api/v1/secret-links/prepare".toList, handlePrepare srv r⟩,
    ⟨"/api/v1/secret-links/consume".toList, handleConsume srv r⟩,
    ⟨"/health/live".toList, handleLive⟩,
    ⟨"/health/ready".toList, handleReady⟩,
    ⟨"/version".toList, handleVersion r⟩] ++
  if srv.settings.metricsEnabled then [⟨"/metrics".toList, pure .file⟩] else []

/-- The whole server, for a path that `ServeMux` neither cleans nor redirects. -/
def serve : Prog Response :=
  match longest ((routes srv r).filter (·.matches r.path)) with
  | none => pure .notFound
  | some route => route.handler

end

theorem longest_mem {routes : List Route} {route : Route} (h : longest routes = some route) :
    route ∈ routes := by
  induction routes generalizing route with
  | nil => cases h
  | cons first routes ih =>
      rw [longest] at h
      split at h
      · cases h
        exact List.mem_cons_self
      · next other hother =>
        split_ifs at h <;> cases h
        · exact List.mem_cons_of_mem _ (ih hother)
        · exact List.mem_cons_self

/-- What holds of the handlers of all routes that match the path holds of the server. -/
theorem serve_of_routes {srv : Server} {r : Request} {P : Prog Response → Prop}
    (hnone : P (pure .notFound))
    (h : ∀ route ∈ routes srv r, route.matches r.path = true → P route.handler) :
    P (serve srv r) := by
  unfold serve
  split
  · exact hnone
  · next route hroute =>
    obtain ⟨hmem, hmatches⟩ := List.mem_filter.mp (longest_mem hroute)
    exact h route hmem hmatches

end SecureShare.Handlers
