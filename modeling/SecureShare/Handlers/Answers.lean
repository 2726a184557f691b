import SecureShare.Handlers.LinkCreation

/-!
# What answers show

Whatever data an answer shows, an operation of the same request has answered. A secret is shown
only after the lease of its link was taken with the token of the request, and completed.
-/
namespace SecureShare.Handlers
open Go Library Http
open Auth (User Actor)
open Delivery (UUID ConsumeCandidate ConsumeResponse CreateResponse ServiceError)

/-- The calls that lead to a secret: the link `item` was leased with the token and the password
of the request, its payload decrypted, and the lease completed. -/
structure Revealed (srv : Server) (r : Request) (calls : Calls) (item : ConsumeCandidate)
    (shown : ConsumeResponse) : Prop where
  leased : ∃ body tokenHash passwordHash leaseID, r.decode .consume = .ok body ∧
    srv.deps.tokenHMAC srv.cfg.tokenHMACPepper body.1 = some tokenHash ∧
    (∀ hash ∈ passwordHash, srv.deps.verifyPassword body.2 hash = true) ∧
    ⟨.beginConsume tokenHash passwordHash leaseID, some (some item)⟩ ∈ calls ∧
    ⟨.completeConsume item.id leaseID, some true⟩ ∈ calls
  decrypted : ∃ plaintext, ⟨.vaultDecrypt item.encryptedPayload, some plaintext⟩ ∈ calls ∧
    Delivery.normalizeConsumedPayload plaintext = some (shown.payload, shown.secret)

/-- What the answer to an operation lets the server show. -/
def Op.Backs (srv : Server) : (op : Op) → op.Answer → Body → Prop
  | .createSession user, session, .loggedIn actorID role token =>
    actorID = user.username ∧ role = user.role ∧ token = srv.manager.csrfToken session
  | .createSession _, session, .csrfToken token => token = srv.manager.csrfToken session
  | .sessionByHash _, session, .me shown => shown = session
  | .sessionByHash _, session, .theme theme => theme = session.themePreference
  | .setThemePreference _ _, user, .theme theme => theme = user.themePreference
  | .query q, _, .rows shown => shown = q
  | .userByID _, user, .user shown | .createUser _, user, .user shown
  | .updateUser _ _, user, .user shown => shown = user
  | .apiClientByID _, client, .client shown
  | .setAPIClientStatus _ _, client, .client shown => shown = client
  | .createAPIClient _, issued, .issuedClient client secret
  | .rotateAPIClientSecret _ _, issued, .issuedClient client secret => (client, secret) = issued
  | .metadata _, row, .metadata shown => row = some shown
  | .revoke id, revoked, .revoked shown => revoked = true ∧ shown = ⟨id, some .revoked, true, true⟩
  | .revokeStatus _, result, .revoked shown => shown = result
  | .updatePasswordProtection _ _, result, .protection shown => shown = result ∧ result.updated = true
  | .cleanup, result, .cleanup shown => shown = result
  | .getEmailSettings, stored, .emailSettings shown =>
    shown = Email.safeSettings (stored.getD Email.defaultStoredSettings)
  | .saveEmailSettings _, saved, .emailSettings shown => shown = Email.safeSettings saved
  | .smtp, failure, .tested _ => failure = none
  | .getPublicSettings, stored, .publicSettings shown =>
    shown = stored.getD PublicExperience.defaultSettings
  | .savePublicSettings _, settings, .publicSettings shown => shown = settings
  | .prepare _, response, .prepared shown => shown = response
  | _, _, _ => False

/-- One of the calls backs what is shown. -/
def Backed (srv : Server) (calls : Calls) (body : Body) : Prop :=
  ∃ op answer, ⟨op, some answer⟩ ∈ calls ∧ op.Backs srv answer body

/-- What an answer shows follows from the calls before it. Errors show no data, and a token
without a hash belongs to no link. -/
def Body.Earned (srv : Server) (r : Request) (calls : Calls) : Body → Prop
  | .error _ _ | .fields _ _ _ | .ok | .status _ | .version | .preview _ | .tested (some _) => True
  | .consumed shown => ∃ item, Revealed srv r calls item shown
  | .created link result =>
    (∃ actorID req params token, ⟨.insertParams actorID req, some (.ok (params, token))⟩ ∈ calls ∧
      ⟨.insert params, some ()⟩ ∈ calls ∧
      link = ⟨params.id, srv.cfg.appBaseURL ++ "/s#".toList ++ token, params.expiresAt⟩) ∧
    (result.status = .sent → MailSent calls)
  | .email result => result.status = .sent → MailSent calls
  | .prepared shown => shown = ⟨false, false, none⟩ ∨ Backed srv calls (.prepared shown)
  | body => Backed srv calls body

def Response.Earned (srv : Server) (r : Request) (calls : Calls) : Response → Prop
  | .json _ body => body.Earned srv r calls
  | .page _ _ | .redirect _ _ | .file | .notFound => True

/-- From these calls on, the answer of the program is earned. -/
def Earns (srv : Server) (r : Request) (seen : Calls) (p : Prog Response) : Prop :=
  ∀ calls, seen ⊆ calls →
    p.Meets freeContract (fun calls response => response.Earned srv r calls) calls

section
variable {srv : Server} {r : Request} {seen calls : Calls} {response : Response} {α β ε : Type}
  {actor : Actor} {permission : Text} {template : String} {op : Op}

/-! ### Programs -/

theorem called_last {call : Call Op Op.Answer} : call ∈ calls ++ [call] :=
  List.mem_append_right _ (List.mem_singleton.mpr rfl)

theorem called_before {call other : Call Op Op.Answer} (h : call ∈ calls) : call ∈ calls ++ [other] :=
  List.mem_append_left _ h

theorem Revealed.mono {item : ConsumeCandidate} {shown : ConsumeResponse}
    (h : Revealed srv r seen item shown) (hsub : seen ⊆ calls) : Revealed srv r calls item shown := by
  obtain ⟨⟨body, tokenHash, passwordHash, leaseID, hbody, htoken, hpassword, hbegun, hcompleted⟩,
    plaintext, hdecrypted, hpayload⟩ := h
  exact ⟨⟨body, tokenHash, passwordHash, leaseID, hbody, htoken, hpassword, hsub hbegun,
    hsub hcompleted⟩, plaintext, hsub hdecrypted, hpayload⟩

theorem Backed.mono {body : Body} (h : Backed srv seen body) (hsub : seen ⊆ calls) :
    Backed srv calls body := by
  obtain ⟨op, answer, hcall, hbacks⟩ := h
  exact ⟨op, answer, hsub hcall, hbacks⟩

theorem Body.Earned.mono {body : Body} (h : body.Earned srv r seen) (hsub : seen ⊆ calls) :
    body.Earned srv r calls := by
  cases body with
  | error | fields | ok | status | version | preview => trivial
  | tested failure =>
      cases failure with
      | none => exact Backed.mono h hsub
      | some category => trivial
  | consumed shown =>
      obtain ⟨item, hrevealed⟩ := h
      exact ⟨item, hrevealed.mono hsub⟩
  | created link result =>
      obtain ⟨⟨actorID, req, params, token, hparams, hinsert, hlink⟩, hsent⟩ := h
      exact ⟨⟨actorID, req, params, token, hsub hparams, hsub hinsert, hlink⟩,
        fun hstatus => hsub (hsent hstatus)⟩
  | email result => exact fun hstatus => hsub (h hstatus)
  | prepared shown => exact Or.imp_right (fun hbacked => Backed.mono hbacked hsub) h
  | _ => exact Backed.mono h hsub

theorem Response.Earned.mono (h : response.Earned srv r seen) (hsub : seen ⊆ calls) :
    response.Earned srv r calls := by
  cases response with
  | json status body => exact Body.Earned.mono h hsub
  | _ => trivial

theorem earns_pure (h : response.Earned srv r seen) : Earns srv r seen (pure response) :=
  fun _ hsub => h.mono hsub

theorem Backed.earned {body : Body} (h : Backed srv calls body) : body.Earned srv r calls := by
  obtain ⟨op, answer, hcall, hbacks⟩ := h
  cases body with
  | error | fields | ok | status | version | preview => trivial
  | tested failure =>
      cases failure with
      | none => exact ⟨op, answer, hcall, hbacks⟩
      | some category => trivial
  | created | email | consumed => cases op <;> exact hbacks.elim
  | prepared => exact .inr ⟨op, answer, hcall, hbacks⟩
  | _ => exact ⟨op, answer, hcall, hbacks⟩

/-- What is shown of the answer to this operation. -/
theorem earns_backed {status : ℕ} {body : Body} {answer : op.Answer} (h : op.Backs srv answer body) :
    Earns srv r (⟨op, some answer⟩ :: seen) (pure (.json status body)) :=
  earns_pure (Backed.earned ⟨op, answer, List.mem_cons_self, h⟩)

theorem earns_call {next : Option op.Answer → Prog Response}
    (h : ∀ answer, Earns srv r (⟨op, answer⟩ :: seen) (next answer)) :
    Earns srv r seen (perform op >>= next) := by
  intro calls hsub
  refine meets_call trivial fun answer _ => h answer _ ?_
  refine List.cons_subset.mpr ⟨called_last, ?_⟩
  exact List.Subset.trans hsub (List.subset_append_left _ _)

theorem earns_meets {p : Prog β} {Q : Calls → β → Prop} {next : β → Prog Response}
    (h : ∀ calls, p.Meets freeContract Q calls)
    (hnext : ∀ calls b, seen ⊆ calls → Q calls b → Earns srv r calls (next b)) :
    Earns srv r seen (p >>= next) := by
  intro calls hsub
  refine (h calls).grows.bind fun calls' b hcalls => ?_
  exact hnext calls' b (List.Subset.trans hsub hcalls.1) hcalls.2 calls' (List.Subset.refl _)

theorem meets_any {p : Prog α} : p.Meets freeContract (fun _ _ => True) calls :=
  Program.uses_any.meets trivial (fun _ _ _ _ => trivial) fun _ _ _ _ _ => trivial

theorem earns_bind {p : Prog β} {next : β → Prog Response} (h : ∀ b, Earns srv r seen (next b)) :
    Earns srv r seen (p >>= next) :=
  earns_meets (fun _ => meets_any) fun _ b hsub _ calls hsub' =>
    h b calls (List.Subset.trans hsub hsub')

theorem earns_withSome {p : Prog (Option β)} {failed : Response} {next : β → Prog Response}
    (hfailed : failed.Earned srv r seen) (h : ∀ b, Earns srv r seen (next b)) :
    Earns srv r seen (withSome p failed next) := by
  refine earns_bind fun found => ?_
  cases found with
  | none => exact earns_pure hfailed
  | some b => exact h b

theorem earns_withOk {p : Prog (Except ε β)} {failed : ε → Response} {next : β → Prog Response}
    (hfailed : ∀ e, (failed e).Earned srv r seen) (h : ∀ b, Earns srv r seen (next b)) :
    Earns srv r seen (withOk p failed next) := by
  refine earns_bind fun found => ?_
  cases found with
  | error e => exact earns_pure (hfailed e)
  | ok b => exact h b

/-- Goes on with what a program finds, of which more is known. -/
theorem earns_found {p : Prog (Option β)} {Q : Calls → β → Prop} {failed : Response}
    {next : β → Prog Response}
    (h : ∀ calls, p.Meets freeContract (fun calls found => ∀ b ∈ found, Q calls b) calls)
    (hfailed : ∀ calls, failed.Earned srv r calls)
    (hnext : ∀ calls b, Q calls b → Earns srv r calls (next b)) :
    Earns srv r seen (withSome p failed next) := by
  refine earns_meets h fun calls found _ hfound => ?_
  cases found with
  | none => exact earns_pure (hfailed calls)
  | some b => exact hnext calls b (hfound b rfl)

theorem earns_result {p : Prog (Except ε β)} {Q : Calls → β → Prop} {failed : ε → Response}
    {next : β → Prog Response}
    (h : ∀ calls, p.Meets freeContract (fun calls found => ∀ b, found = .ok b → Q calls b) calls)
    (hfailed : ∀ calls e, (failed e).Earned srv r calls)
    (hnext : ∀ calls b, Q calls b → Earns srv r calls (next b)) :
    Earns srv r seen (withOk p failed next) := by
  refine earns_meets h fun calls found _ hfound => ?_
  cases found with
  | error e => exact earns_pure (hfailed calls e)
  | ok b => exact hnext calls b (hfound b rfl)

/-- Goes on with the answer to an operation. -/
theorem earns_answer {failed : Response} {next : op.Answer → Prog Response}
    (hfailed : ∀ calls, failed.Earned srv r calls)
    (h : ∀ answer, Earns srv r (⟨op, some answer⟩ :: seen) (next answer)) :
    Earns srv r seen (withSome (perform op) failed next) := by
  refine earns_call fun answer => ?_
  cases answer with
  | none => exact earns_pure (hfailed _)
  | some answer => exact h answer

theorem earns_withLimit {limiter : Limiter} {key : Text} {limited : Response} {next : Prog Response}
    (hlimited : limited.Earned srv r seen) (h : Earns srv r seen next) :
    Earns srv r seen (withLimit limiter key limited next) := by
  refine earns_bind fun allowed => ?_
  split_ifs
  · exact h
  · exact earns_pure hlimited

theorem earns_decodeJSON {kind : BodyKind} {next : kind.Body → Prog Response}
    (h : ∀ body, r.decode kind = .ok body → Earns srv r seen (next body)) :
    Earns srv r seen (decodeJSON r kind next) := by
  unfold decodeJSON
  split
  · exact earns_pure trivial
  · exact earns_pure trivial
  · exact earns_pure trivial
  · next body hbody => exact h body hbody

theorem earns_ite {c : Prop} [Decidable c] {p q : Prog Response} (hp : Earns srv r seen p)
    (hq : Earns srv r seen q) : Earns srv r seen (if c then p else q) := by
  split_ifs
  · exact hp
  · exact hq

theorem earns_method {method : Method} {next : Prog Response} (h : Earns srv r seen next) :
    Earns srv r seen (if r.method ≠ method then pure methodNotAllowed else next) :=
  earns_ite (earns_pure trivial) h

theorem earns_atPath {path : String} {next : Prog Response} (h : Earns srv r seen next) :
    Earns srv r seen (atPath r path next) :=
  earns_ite h (earns_pure trivial)

theorem earns_withActor {next : Actor → Prog Response} (h : ∀ actor, Earns srv r seen (next actor)) :
    Earns srv r seen (withActor srv r permission next) := by
  refine earns_withOk (fun refusal => ?_) h
  cases refusal <;> trivial

/-- Goes on with the session that was found. -/
theorem earns_fromRequest {failed : Response} {next : Auth.Session → Prog Response}
    (hfailed : ∀ calls, failed.Earned srv r calls)
    (h : ∀ id session, Earns srv r (⟨.sessionByHash id, some session⟩ :: seen) (next session)) :
    Earns srv r seen (withSome (fromRequest srv r) failed next) := by
  unfold fromRequest
  split
  · exact earns_pure (hfailed _)
  · exact earns_answer hfailed fun session => h _ session

theorem earns_withSession {next : Auth.Session → Prog Response}
    (h : ∀ id session, Earns srv r (⟨.sessionByHash id, some session⟩ :: seen) (next session)) :
    Earns srv r seen (withSession srv r next) :=
  earns_fromRequest (fun _ => trivial) h

theorem earns_withPage {next : Auth.Session → Prog Response}
    (h : ∀ session, Earns srv r seen (next session)) :
    Earns srv r seen (withPage srv r permission next) :=
  earns_withSome trivial fun session => earns_ite (h session) (earns_pure trivial)

theorem earns_withIDPath {start : String} {next : UUID → Text → Prog Response}
    (h : ∀ id action, Earns srv r seen (next id action)) :
    Earns srv r seen (withIDPath srv r start next) := by
  unfold withIDPath
  dsimp only
  split
  · exact earns_pure trivial
  · exact h _ _

/-! ### Pages -/

theorem earns_render : Earns srv r seen (render srv r template) :=
  earns_bind fun _ => earns_pure trivial

theorem earns_renderPageError {status : ℕ} : Earns srv r seen (renderPageError srv r status) :=
  earns_bind fun _ => earns_pure trivial

theorem earns_pageNotFound : Earns srv r seen (pageNotFound srv r) :=
  earns_withSome trivial fun _ => earns_pure trivial

theorem earns_formPage {permission : String} : Earns srv r seen (formPage srv r permission template) :=
  earns_withPage fun _ => earns_render

theorem earns_queryPage {permission : String} {q : Query} :
    Earns srv r seen (queryPage srv r permission q template) :=
  earns_withPage fun _ => earns_bind fun _ => earns_render

theorem earns_handleRoot : Earns srv r seen (handleRoot srv r) :=
  earns_ite earns_pageNotFound (earns_pure trivial)

theorem earns_handleLoginPage : Earns srv r seen (handleLoginPage srv r) :=
  earns_method (earns_withSome trivial fun _ => earns_pure trivial)

theorem earns_handleAdmin : Earns srv r seen (handleAdmin srv r) :=
  earns_ite earns_pageNotFound (earns_withPage fun _ => earns_bind fun _ => earns_bind fun _ =>
    earns_render)

theorem earns_handleSecretPage : Earns srv r seen (handleSecretPage srv r) := by
  refine earns_withPage fun _ => ?_
  split
  · exact earns_renderPageError
  · exact earns_bind fun _ => earns_ite earns_renderPageError (earns_bind fun _ => earns_render)

theorem earns_handleStatusPage : Earns srv r seen (handleStatusPage srv r) :=
  earns_ite earns_renderPageError (earns_withPage fun _ => earns_bind fun _ => earns_bind fun _ =>
    earns_render)

theorem earns_withDocs {refused : Response} {next : Prog Response}
    (hrefused : refused.Earned srv r seen) (h : Earns srv r seen next) :
    Earns srv r seen (withDocs srv r refused next) :=
  earns_ite h (earns_withSome hrefused fun _ => earns_ite h (earns_pure hrefused))

theorem earns_handleDocsPage : Earns srv r seen (handleDocsPage srv r) :=
  earns_atPath (earns_method (earns_ite (earns_withDocs trivial (earns_withSome trivial fun _ =>
    earns_render)) (earns_pure trivial)))

theorem earns_handleOpenAPISpec : Earns srv r seen (handleOpenAPISpec srv r) :=
  earns_method (earns_withDocs trivial (earns_pure trivial))

theorem earns_handleUserDetailPage : Earns srv r seen (handleUserDetailPage srv r) := by
  refine earns_withPage fun _ => ?_
  split
  · exact earns_renderPageError
  · exact earns_bind fun _ => earns_ite earns_renderPageError earns_render

theorem earns_handleAccountPage : Earns srv r seen (handleAccountPage srv r) :=
  earns_withPage fun _ => earns_bind fun _ => earns_render

theorem earns_handleEmailSettingsPage : Earns srv r seen (handleEmailSettingsPage srv r) :=
  earns_atPath (earns_withPage fun _ => earns_bind fun _ => earns_render)

theorem earns_handlePublicExperiencePage : Earns srv r seen (handlePublicExperiencePage srv r) :=
  earns_atPath (earns_withPage fun _ => earns_bind fun _ =>
    earns_ite earns_renderPageError earns_render)

theorem earns_handlePublicExperiencePreview :
    Earns srv r seen (handlePublicExperiencePreview srv r) := by
  refine earns_ite (earns_pure trivial) (earns_withPage fun _ => ?_)
  split
  · exact earns_pure trivial
  · exact earns_bind fun _ => earns_ite earns_renderPageError (earns_pure trivial)

theorem earns_handleAPIClientDetailPage : Earns srv r seen (handleAPIClientDetailPage srv r) := by
  refine earns_withPage fun _ => ?_
  split
  · exact earns_renderPageError
  · exact earns_bind fun _ => earns_ite earns_renderPageError earns_render

theorem earns_handleRecipientPage : Earns srv r seen (handleRecipientPage r) :=
  earns_method (earns_bind fun _ => earns_pure trivial)

theorem earns_handleErrorPage : Earns srv r seen (handleErrorPage srv r) :=
  earns_bind fun _ => earns_pure trivial

/-! ### Accounts -/

theorem earns_startSession {user : User} {isJSON : Bool} :
    Earns srv r seen (startSession srv r user isJSON) := by
  refine earns_bind fun _ => earns_answer (fun _ => trivial) fun session => ?_
  refine earns_bind fun _ => earns_bind fun _ => ?_
  split_ifs
  · exact earns_backed ⟨rfl, rfl, rfl⟩
  · exact earns_pure trivial

theorem earns_withLogin {next : Bool → Text → Text → Prog Response}
    (h : ∀ isJSON login password, Earns srv r seen (next isJSON login password)) :
    Earns srv r seen (withLogin r next) := by
  unfold withLogin
  split_ifs
  · exact earns_decodeJSON fun _ _ => h _ _ _
  · exact h _ _ _
  · exact earns_pure trivial

theorem earns_handleLogin : Earns srv r seen (handleLogin srv r) := by
  refine earns_method (earns_withLogin fun isJSON login password => earns_withLimit trivial ?_)
  refine earns_bind fun result => ?_
  cases result with
  | unavailable => exact earns_pure trivial
  | rejected => exact earns_bind fun _ => earns_pure trivial
  | accepted user => exact earns_startSession

theorem earns_endSession {session : Auth.Session} (h : response.Earned srv r seen) :
    Earns srv r seen (endSession srv r session response) :=
  earns_bind fun _ => earns_bind fun _ => earns_pure h

theorem earns_handleLogout : Earns srv r seen (handleLogout srv r) :=
  earns_method (earns_ite (earns_pure trivial) (earns_withSession fun _ _ =>
    earns_ite (earns_endSession trivial) (earns_pure trivial)))

theorem earns_handleBrowserLogout : Earns srv r seen (handleBrowserLogout srv r) :=
  earns_method (earns_withSome trivial fun _ =>
    earns_ite (earns_endSession trivial) (earns_pure trivial))

theorem earns_handleMe : Earns srv r seen (handleMe srv r) :=
  earns_method (earns_withSession fun _ _ => earns_backed rfl)

theorem earns_changeTheme {session : Auth.Session} : Earns srv r seen (changeTheme srv r session) := by
  refine earns_decodeJSON fun theme _ => ?_
  split
  · exact earns_pure trivial
  · exact earns_answer (fun _ => trivial) fun user => earns_backed rfl

theorem earns_handleThemePreference : Earns srv r seen (handleThemePreference srv r) :=
  earns_withSession fun _ _ => earns_ite (earns_pure trivial) (earns_ite (earns_backed rfl)
    (earns_method (earns_ite earns_changeTheme (earns_pure trivial))))

theorem earns_changePassword {user : User} {password : Text} :
    Earns srv r seen (changePassword srv r actor user password) :=
  earns_withSome trivial fun _ => earns_bind fun _ => earns_bind fun _ =>
    earns_answer (fun _ => trivial) fun _ => earns_bind fun _ => earns_backed rfl

theorem earns_handleChangePassword : Earns srv r seen (handleChangePassword srv r) := by
  refine earns_method (earns_withActor fun actor => earns_decodeJSON fun body _ => ?_)
  refine earns_bind fun result => ?_
  cases result with
  | unavailable => exact earns_pure trivial
  | rejected => exact earns_pure trivial
  | accepted user => exact earns_ite (earns_pure trivial) (earns_ite earns_changePassword
      (earns_pure trivial))

theorem earns_answerQuery {q : Query} : Earns srv r seen (answerQuery q) :=
  earns_answer (fun _ => trivial) fun _ => earns_backed rfl

theorem earns_handleMySessions : Earns srv r seen (handleMySessions srv r) :=
  earns_method (earns_withSession fun _ _ => earns_answerQuery)

theorem earns_handleRevokeOtherSessions : Earns srv r seen (handleRevokeOtherSessions srv r) :=
  earns_method (earns_withActor fun _ => earns_withSome trivial fun _ => earns_bind fun _ =>
    earns_pure trivial)

/-! ### Users and API clients -/

theorem earns_handleUsersAPI : Earns srv r seen (handleUsersAPI srv r) := by
  refine earns_atPath (earns_withActor fun actor => ?_)
  split
  · exact earns_answerQuery
  · exact earns_decodeJSON fun _ _ => earns_ite (earns_answer (fun _ => trivial) fun _ =>
      earns_bind fun _ => earns_backed rfl) (earns_pure trivial)
  · exact earns_pure trivial

/-- A user is shown as the last statement has left it. -/
theorem earns_changeUser {id : UUID} {patch : Auth.UserPatch} {type : String} :
    Earns srv r seen (changeUser srv r actor (updateUser srv id patch) type) := by
  have hupdate : ∀ calls, (updateUser srv id patch).Meets freeContract
      (fun calls found => ∀ user ∈ found, Backed srv calls (.user user)) calls := by
    intro calls
    refine meets_call trivial fun found _ => ?_
    cases found with
    | none => exact fun _ h => nomatch h
    | some current =>
        dsimp only
        split
        · exact fun _ h => nomatch h
        · next columns _ =>
          refine ⟨trivial, fun answer _ user huser => ⟨.updateUser id columns, user, ?_, rfl⟩⟩
          obtain rfl := Option.mem_def.mp huser
          exact called_last
  exact earns_found hupdate (fun _ => trivial) fun _ _ hbacked => earns_bind fun _ => earns_pure hbacked

theorem earns_handleUserAPI : Earns srv r seen (handleUserAPI srv r) := by
  refine earns_withActor fun actor => earns_withIDPath fun id action => ?_
  split_ifs
  · exact earns_answer (fun _ => trivial) fun _ => earns_backed rfl
  · exact earns_decodeJSON fun _ _ => earns_changeUser
  · exact earns_decodeJSON fun _ _ => earns_ite (earns_withSome trivial fun _ => earns_bind fun _ =>
      earns_pure trivial) (earns_pure trivial)
  · exact earns_changeUser
  · exact earns_changeUser
  · exact earns_pure trivial

theorem earns_handleAPIClientsAPI : Earns srv r seen (handleAPIClientsAPI srv r) := by
  refine earns_atPath (earns_withActor fun actor => ?_)
  split
  · exact earns_answerQuery
  · refine earns_decodeJSON fun body _ => ?_
    split
    · exact earns_pure trivial
    · exact earns_answer (fun _ => trivial) fun _ => earns_bind fun _ => earns_backed rfl
  · exact earns_pure trivial

theorem earns_setClientStatus {id : UUID} {status : Auth.APIClientStatus} {type : String} :
    Earns srv r seen (setClientStatus srv r actor id status type) :=
  earns_answer (fun _ => trivial) fun _ => earns_bind fun _ => earns_backed rfl

theorem earns_withClient {id : UUID} {next : Auth.APIClient → Prog Response}
    (h : ∀ client, Earns srv r seen (next client)) : Earns srv r seen (withClient id next) :=
  earns_withSome trivial fun client => earns_ite (earns_pure trivial) (h client)

theorem earns_handleAPIClientAPI : Earns srv r seen (handleAPIClientAPI srv r) := by
  refine earns_withActor fun actor => earns_withIDPath fun id action => ?_
  split_ifs
  · exact earns_answer (fun _ => trivial) fun _ => earns_backed rfl
  · exact earns_setClientStatus
  · exact earns_withClient fun _ => earns_setClientStatus
  · exact earns_setClientStatus
  · exact earns_withClient fun _ => earns_answer (fun _ => trivial) fun _ => earns_bind fun _ =>
      earns_backed rfl
  · exact earns_pure trivial

/-! ### Administration -/

theorem earns_handleDashboardAPI : Earns srv r seen (handleDashboardAPI srv r) :=
  earns_method (earns_withActor fun _ => earns_answer (fun _ => trivial) fun _ =>
    earns_bind fun _ => earns_backed rfl)

theorem earns_handleManualCleanup : Earns srv r seen (handleManualCleanup srv r) :=
  earns_method (earns_withActor fun _ => earns_answer (fun _ => trivial) fun _ => earns_bind fun _ =>
    earns_backed rfl)

theorem meets_safeEmailSettings : safeEmailSettings.Meets freeContract
    (fun calls found => ∀ settings ∈ found, Backed srv calls (.emailSettings settings)) calls := by
  refine meets_call trivial fun stored _ => ?_
  cases stored with
  | none => exact fun _ h => nomatch h
  | some stored =>
      rintro _ ⟨⟩
      exact ⟨.getEmailSettings, stored, called_last, rfl⟩

/-- Settings that are shown after they were saved. -/
theorem meets_savedEmailSettings {settings : Email.StoredSettings} {e : Email.EmailError}
    {result : Email.StoredSettings → α} (shown : α → Email.Settings)
    (hshown : ∀ saved, shown (result saved) = Email.safeSettings saved) :
    (perform (.saveEmailSettings settings) >>= fun saved =>
      (match saved with
        | none => pure (.error e)
        | some saved => pure (.ok (result saved)) : Prog (Except Email.EmailError α))).Meets freeContract
      (fun calls found => ∀ a, found = .ok a → Backed srv calls (.emailSettings (shown a))) calls := by
  refine meets_call trivial fun saved _ => ?_
  cases saved with
  | none => exact fun _ h => nomatch h
  | some saved =>
      rintro _ ⟨⟩
      rw [hshown]
      exact ⟨.saveEmailSettings settings, saved, called_last, rfl⟩

theorem meets_updateEmail {userID : UUID} {req : Email.UpdateRequest} :
    (updateEmail srv userID req).Meets freeContract
      (fun calls found => ∀ a, found = .ok a → Backed srv calls (.emailSettings a.settings)) calls := by
  refine meets_call trivial fun stored _ => ?_
  cases stored with
  | none => exact fun _ h => nomatch h
  | some stored =>
      refine meets_any.bind fun calls ciphertext _ => ?_
      cases ciphertext with
      | none => exact fun _ h => nomatch h
      | some ciphertext =>
          dsimp only
          split
          · exact fun _ h => nomatch h
          · exact meets_savedEmailSettings EmailUpdateResult.settings fun _ => rfl

theorem meets_setEmailEnabled {userID : UUID} {enabled : Bool} :
    (setEmailEnabled srv userID enabled).Meets freeContract
      (fun calls found => ∀ a, found = .ok a → Backed srv calls (.emailSettings a)) calls := by
  refine meets_call trivial fun stored _ => ?_
  match stored with
  | none => exact fun _ h => nomatch h
  | some none => exact fun _ h => nomatch h
  | some (some stored) =>
    dsimp only
    split
    · exact fun _ h => nomatch h
    · exact meets_savedEmailSettings id fun _ => rfl

theorem earned_writeEmailError (e : Email.EmailError) : (writeEmailError e).Earned srv r calls := by
  cases e <;> trivial

theorem earns_updateEmailSettings : Earns srv r seen (updateEmailSettings srv r actor) := by
  refine earns_decodeJSON fun req _ => ?_
  refine earns_result (fun _ => meets_updateEmail) (fun _ => earned_writeEmailError)
    fun calls result hbacked => earns_bind fun _ => ?_
  have hshown : Earns srv r calls (pure (.json 200 (.emailSettings result.settings))) :=
    earns_pure hbacked
  split_ifs
  · exact earns_bind fun _ => earns_bind fun _ => hshown
  · exact earns_bind fun _ => hshown
  · exact earns_bind fun _ => hshown
  · exact hshown

theorem earns_handleEmailSettingsAPI : Earns srv r seen (handleEmailSettingsAPI srv r) := by
  refine earns_atPath (earns_withActor fun actor => ?_)
  split
  · exact earns_found (fun _ => meets_safeEmailSettings) (fun _ => trivial) fun _ _ hbacked =>
      earns_pure hbacked
  · exact earns_updateEmailSettings
  · exact earns_pure trivial

/-- The mail server has taken a message that is said to be sent. -/
theorem meets_sent {usable : Email.StoredSettings → Bool} {recipient : Option Text} :
    (sendWith srv usable recipient).Meets freeContract
      (fun calls failure => failure = none → MailSent calls) calls := by
  refine meets_call trivial fun stored _ => ?_
  match stored with
  | none => exact fun h => nomatch h
  | some none => exact fun h => nomatch h
  | some (some stored) =>
    dsimp only
    split_ifs
    · exact fun h => nomatch h
    · refine meets_call trivial fun answer _ hsent => ?_
      match answer with
      | none => cases hsent
      | some none => exact called_last
      | some (some category) => cases hsent
    · exact fun h => nomatch h

theorem earns_answerTest {test : Prog (Option Email.Category)} {type : String}
    (h : ∀ calls, test.Meets freeContract (fun calls failure => failure = none → MailSent calls) calls) :
    Earns srv r seen (answerTest srv r actor test type) := by
  refine earns_meets h fun calls failure _ hsent => ?_
  cases failure with
  | none => exact earns_bind fun _ => earns_pure ⟨.smtp, none, hsent rfl, rfl⟩
  | some category => exact earns_bind fun _ => earns_pure trivial

theorem earns_previewTemplate : Earns srv r seen (previewTemplate srv r) := by
  refine earns_decodeJSON fun override _ => earns_bind fun settings => ?_
  dsimp only
  split
  · exact earns_pure (earned_writeEmailError _)
  · exact earns_pure trivial

theorem earns_switchEmail {enabled : Bool} {type : String} :
    Earns srv r seen (switchEmail srv r actor enabled type) :=
  earns_result (fun _ => meets_setEmailEnabled) (fun _ => earned_writeEmailError)
    fun _ _ hbacked => earns_bind fun _ => earns_pure hbacked

theorem earns_handleEmailSettingsActionAPI :
    Earns srv r seen (handleEmailSettingsActionAPI srv r) := by
  refine earns_withActor fun actor => ?_
  dsimp only
  split_ifs
  · exact earns_answerTest fun _ => meets_sent
  · exact earns_withLimit trivial (earns_decodeJSON fun _ _ => earns_answerTest fun _ => meets_sent)
  · exact earns_previewTemplate
  · exact earns_switchEmail
  · exact earns_switchEmail
  · exact earns_pure trivial

theorem meets_currentPublicSettings : currentPublicSettings.Meets freeContract
    (fun calls found => ∀ settings ∈ found, Backed srv calls (.publicSettings settings)) calls := by
  refine meets_call trivial fun stored _ => ?_
  cases stored with
  | none => exact fun _ h => nomatch h
  | some stored =>
      rintro _ ⟨⟩
      exact ⟨.getPublicSettings, stored, called_last, rfl⟩

theorem meets_updatePublicSettings {userID : UUID} {locale : Text} :
    (updatePublicSettings srv userID locale).Meets freeContract
      (fun calls found => ∀ a, found = .ok a → Backed srv calls (.publicSettings a)) calls := by
  unfold updatePublicSettings
  split
  · exact fun _ h => nomatch h
  · refine meets_any.bind fun calls current _ => ?_
    cases current with
    | none => exact fun _ h => nomatch h
    | some current =>
        refine meets_call trivial fun saved _ => ?_
        cases saved with
        | none => exact fun _ h => nomatch h
        | some saved =>
            rintro _ ⟨⟩
            exact ⟨.savePublicSettings _, saved, called_last, rfl⟩

theorem earns_handlePublicExperienceAPI : Earns srv r seen (handlePublicExperienceAPI srv r) := by
  refine earns_atPath (earns_withSession fun id session => earns_ite (earns_pure trivial) ?_)
  split
  · exact earns_found (fun _ => meets_currentPublicSettings) (fun _ => trivial) fun _ _ hbacked =>
      earns_pure hbacked
  · refine earns_ite (earns_decodeJSON fun locale _ => ?_) (earns_pure trivial)
    refine earns_result (fun _ => meets_updatePublicSettings) (fun calls invalid => ?_)
      fun _ _ hbacked => earns_bind fun _ => earns_pure hbacked
    split_ifs <;> trivial
  · exact earns_pure trivial

theorem earns_handleReady : Earns srv r seen handleReady :=
  earns_withSome trivial fun _ => earns_withSome trivial fun _ => earns_pure trivial

theorem earns_handleVersion : Earns srv r seen (handleVersion r) :=
  earns_method (earns_pure trivial)

/-! ### Links -/

theorem meets_created {actorID : Text} {req : Delivery.CreateRequest} :
    (create srv actorID req).Meets freeContract (fun calls found => ∀ link, found = .ok link →
      ∃ actorID req params token, ⟨.insertParams actorID req, some (.ok (params, token))⟩ ∈ calls ∧
        ⟨.insert params, some ()⟩ ∈ calls ∧
        link = ⟨params.id, srv.cfg.appBaseURL ++ "/s#".toList ++ token, params.expiresAt⟩) calls := by
  refine meets_call trivial fun answer _ => ?_
  match answer with
  | none => exact fun _ h => nomatch h
  | some (.error e) => exact fun _ h => nomatch h
  | some (.ok (params, token)) =>
    refine meets_call trivial fun inserted _ => ?_
    cases inserted with
    | none => exact fun _ h => nomatch h
    | some inserted =>
        refine meets_call trivial fun recorded _ => ?_
        rintro _ ⟨⟩
        refine ⟨actorID, req, params, token, ?_, ?_, rfl⟩
        · exact called_before (called_before called_last)
        · exact called_before called_last

theorem meets_emailSent {title : Text} {link : CreateResponse} {plan : EmailDeliveryPlan}
    {retry : Bool} : (sendCreatedEmail srv r actor title link plan retry).Meets freeContract
      (fun calls email => email.status = .sent → MailSent calls) calls := by
  have hmessage : ∀ calls source, (sendMessage srv r actor plan retry source).Meets freeContract
      (fun calls email => email.status = .sent → MailSent calls) calls := by
    intro calls source
    refine meets_any.bind fun calls _ _ => ?_
    split_ifs
    on_goal 1 => refine meets_any.bind fun calls _ _ => ?_
    all_goals
      refine meets_sent.bind fun calls failure hsent => ?_
      cases failure with
      | none =>
          refine meets_call trivial fun sentAt _ => meets_any.grows.bind fun calls' _ h => ?_
          exact fun _ => h.1 (called_before (hsent rfl))
      | some category => exact meets_any.bind fun _ _ _ h => nomatch h
  refine meets_any.bind fun calls settings _ => ?_
  cases settings with
  | none => exact fun h => nomatch h
  | some settings =>
      refine meets_call trivial fun now _ => ?_
      split
      · exact fun h => nomatch h
      · exact hmessage _ _

theorem earned_writeDeliveryError (e : ServiceError) :
    (writeDeliveryError e).Earned srv r calls := trivial

theorem earned_preflightError (e : PreflightError) :
    (writeEmailDeliveryPreflightError e).Earned srv r calls := by
  cases e <;> trivial

theorem earns_createLink {body : CreateLinkBody} : Earns srv r seen (createLink srv r actor body) := by
  refine earns_result (fun _ => meets_created) (fun _ => earned_writeDeliveryError)
    fun calls link hcreated => ?_
  refine earns_ite ?_ (earns_pure ⟨hcreated, fun h => nomatch h⟩)
  refine earns_meets (fun _ => meets_emailSent) fun calls' email hsub hsent => earns_pure ⟨?_, hsent⟩
  obtain ⟨actorID, req, params, token, hparams, hinsert, hlink⟩ := hcreated
  exact ⟨actorID, req, params, token, hsub hparams, hsub hinsert, hlink⟩

theorem earns_checkEmail {body : CreateLinkBody} {plan : EmailDeliveryPlan} :
    Earns srv r seen (checkEmail srv r actor body plan) :=
  earns_ite (earns_withLimit trivial (earns_bind fun _ => earns_withOk earned_preflightError fun _ =>
    earns_createLink)) (earns_pure trivial)

theorem earns_handleSecretLinks : Earns srv r seen (handleSecretLinks srv r) := by
  refine earns_atPath (earns_ite ?_ (earns_method ?_))
  · exact earns_withActor fun _ => earns_answer (fun _ => trivial) fun _ => earns_backed rfl
  · exact earns_withActor fun _ => earns_withLimit trivial (earns_decodeJSON fun _ _ =>
      earns_ite earns_checkEmail earns_createLink)

theorem earns_handleSecretLinkSendEmail : Earns srv r seen (handleSecretLinkSendEmail srv r) := by
  refine earns_method (earns_withActor fun actor => earns_ite ?_ (earns_pure trivial))
  refine earns_decodeJSON fun body _ => earns_withLimit trivial ?_
  refine earns_withSome trivial fun prepared => earns_ite ?_ (earns_pure trivial)
  refine earns_bind fun now => earns_withOk earned_preflightError fun _ => ?_
  exact earns_meets (fun _ => meets_emailSent) fun _ _ _ hsent => earns_pure hsent

theorem meets_revokeLink {id : UUID} : (revokeLink id).Meets freeContract
    (fun calls found => ∀ result ∈ found, Backed srv calls (.revoked result)) calls := by
  refine meets_call trivial fun revoked _ => ?_
  match revoked with
  | none => exact fun _ h => nomatch h
  | some true =>
    rintro _ ⟨⟩
    exact ⟨.revoke id, true, called_last, rfl, rfl⟩
  | some false =>
    refine ⟨trivial, ?_⟩
    rintro _ _ result rfl
    exact ⟨.revokeStatus id, result, called_last, rfl⟩

theorem meets_revoke {id : UUID} {actorID ipHash : Text} {requestID : ByteString} :
    (revoke id actorID ipHash requestID).Meets freeContract
      (fun calls found => ∀ result ∈ found, Backed srv calls (.revoked result)) calls :=
  meets_revokeLink.bind fun _ _ hfound => meets_call trivial fun _ _ => fun result hresult =>
    (hfound result hresult).mono (List.subset_append_left _ _)

theorem earns_withMetadata {id : UUID} {next : Delivery.Row → Prog Response}
    (h : ∀ row, Earns srv r (⟨.metadata id, some (some row)⟩ :: seen) (next row)) :
    Earns srv r seen (withMetadata id next) := by
  refine earns_answer (fun _ => trivial) fun row => ?_
  cases row with
  | none => exact earns_pure trivial
  | some row => exact h row

/-- The part that both changes of the protection of a link share. -/
theorem backed_protection {id : UUID} {hash : Option Text} {result : Delivery.ProtectionUpdateResult}
    (hupdated : result.updated = true)
    (h : ⟨.updatePasswordProtection id hash, some result⟩ ∈ calls) :
    Backed srv calls (.protection result) :=
  ⟨.updatePasswordProtection id hash, result, h, rfl, hupdated⟩

theorem meets_setPasswordProtection {id : UUID} {password actorID ipHash : Text}
    {requestID : ByteString} :
    (setPasswordProtection id password actorID ipHash requestID).Meets freeContract
      (fun calls found => ∀ result, found = .ok result → Backed srv calls (.protection result))
      calls := by
  unfold setPasswordProtection
  split_ifs
  · exact fun _ h => nomatch h
  · refine meets_call trivial fun hash _ => ?_
    cases hash with
    | none => exact fun _ h => nomatch h
    | some hash =>
        refine meets_call trivial fun result _ => ?_
        cases result with
        | none => exact fun _ h => nomatch h
        | some result =>
            dsimp only
            by_cases hupdated : result.updated = true
            · rw [if_pos hupdated]
              refine meets_call trivial fun recorded _ => ?_
              rintro _ ⟨⟩
              exact backed_protection hupdated (called_before called_last)
            · rw [if_neg hupdated]
              exact fun _ h => nomatch h

theorem meets_removePasswordProtection {id : UUID} {actorID ipHash : Text} {requestID : ByteString} :
    (removePasswordProtection id actorID ipHash requestID).Meets freeContract
      (fun calls found => ∀ result, found = .ok result → Backed srv calls (.protection result))
      calls := by
  refine meets_call trivial fun result _ => ?_
  cases result with
  | none => exact fun _ h => nomatch h
  | some result =>
      dsimp only
      split_ifs with hupdated hprotected
      · refine meets_call trivial fun recorded _ => ?_
        rintro _ ⟨⟩
        exact backed_protection hupdated (called_before called_last)
      · rintro _ ⟨⟩
        exact backed_protection hupdated called_last
      · exact fun _ h => nomatch h

theorem earns_changeProtection {id : UUID} : Earns srv r seen (changeProtection srv r actor id) := by
  unfold changeProtection
  dsimp only
  split_ifs
  · exact earns_decodeJSON fun _ _ => earns_result (fun _ => meets_setPasswordProtection)
      (fun _ => earned_writeDeliveryError) fun _ _ hbacked => earns_pure hbacked
  · exact earns_result (fun _ => meets_removePasswordProtection)
      (fun _ => earned_writeDeliveryError) fun _ _ hbacked => earns_pure hbacked

theorem earns_handleSecretLinkByID : Earns srv r seen (handleSecretLinkByID srv r) := by
  refine earns_ite (earns_pure trivial) (earns_withIDPath fun id action => ?_)
  split_ifs
  · exact earns_withActor fun _ => earns_withMetadata fun _ => earns_backed rfl
  · exact earns_withActor fun _ => earns_found (fun _ => meets_revoke) (fun _ => trivial)
      fun _ _ hbacked => earns_pure hbacked
  · exact earns_withActor fun _ => earns_withMetadata fun _ =>
      earns_ite earns_changeProtection (earns_pure trivial)
  · exact earns_pure trivial

/-! ### Recipients -/

theorem meets_prepare {token : Text} : (prepare srv token).Meets freeContract
    (fun calls found => ∀ response ∈ found, response = ⟨false, false, none⟩ ∨
      Backed srv calls (.prepared response)) calls := by
  unfold prepare
  split
  · rintro _ ⟨⟩
    exact .inl rfl
  · next tokenHash _ =>
    refine ⟨trivial, ?_⟩
    rintro _ _ response rfl
    exact .inr ⟨.prepare tokenHash, response, called_last, rfl⟩

theorem earns_handlePrepare : Earns srv r seen (handlePrepare srv r) :=
  earns_method (earns_withLimit trivial (earns_decodeJSON fun _ _ =>
    earns_found (fun _ => meets_prepare) (fun _ => trivial) fun _ _ h => earns_pure h))

/-- A lease that was taken and completed. -/
theorem meets_consumeLease {body : BodyKind.consume.Body} {tokenHash : Delivery.Bytes}
    {passwordHash : Option Text} (hbody : r.decode .consume = .ok body)
    (htoken : srv.deps.tokenHMAC srv.cfg.tokenHMACPepper body.1 = some tokenHash)
    (hpassword : ∀ hash ∈ passwordHash, srv.deps.verifyPassword body.2 hash = true) :
    (consumeLease tokenHash passwordHash).Meets freeContract (fun calls found =>
      ∀ shown, found = .ok shown → ∃ item, Revealed srv r calls item shown) calls := by
  refine meets_call trivial fun leaseID _ => ?_
  cases leaseID with
  | none => exact fun _ h => nomatch h
  | some leaseID =>
      refine meets_call trivial fun begun _ => ?_
      match begun with
      | none => exact fun _ h => nomatch h
      | some none => exact fun _ h => nomatch h
      | some (some item) =>
        refine meets_call trivial fun plaintext _ => ?_
        cases plaintext with
        | none => exact meets_call trivial fun restored _ => fun _ h => nomatch h
        | some plaintext =>
            refine meets_call trivial fun completed _ => ?_
            match completed with
            | none => exact fun _ h => nomatch h
            | some false => exact fun _ h => nomatch h
            | some true =>
              dsimp only
              split
              · exact fun _ h => nomatch h
              · next canonical legacySecret hpayload =>
                refine meets_call trivial fun recorded _ => ?_
                rintro _ ⟨⟩
                refine ⟨item, ⟨body, tokenHash, passwordHash, leaseID, hbody, htoken, hpassword, ?_, ?_⟩,
                  plaintext, ?_, hpayload⟩
                · exact called_before (called_before (called_before called_last))
                · exact called_before called_last
                · exact called_before (called_before called_last)

theorem earns_handleConsume : Earns srv r seen (handleConsume srv r) := by
  refine earns_method (earns_decodeJSON fun body hbody => earns_withLimit trivial ?_)
  have hconsume : ∀ calls, (consume srv body.1 body.2).Meets freeContract (fun calls found =>
      ∀ shown, found = .ok shown → ∃ item, Revealed srv r calls item shown) calls := by
    intro calls
    unfold consume
    split
    · exact fun _ h => nomatch h
    · next tokenHash htoken =>
      refine meets_call trivial fun found _ => ?_
      match found with
      | none => exact fun _ h => nomatch h
      | some none => exact fun _ h => nomatch h
      | some (some item) =>
        dsimp only
        split
        · exact meets_consumeLease hbody htoken fun _ h => nomatch h
        · next hash _ =>
          split_ifs with hverified
          · refine meets_consumeLease hbody htoken ?_
            rintro _ ⟨⟩
            exact hverified
          · refine meets_call trivial fun failure _ => ?_
            cases failure with
            | none => exact fun _ h => nomatch h
            | some failure =>
                dsimp only
                split_ifs
                · exact meets_any.bind fun _ _ _ => fun _ h => nomatch h
                · exact meets_any.bind fun _ _ _ => fun _ h => nomatch h
                · exact fun _ h => nomatch h
  exact earns_result hconsume (fun _ => earned_writeDeliveryError) fun _ _ hrevealed =>
    earns_pure hrevealed

/-! ### All routes -/

theorem serve_earns : Earns srv r [] (serve srv r) := by
  apply serve_of_routes
  · exact earns_pure trivial
  have hmetrics : ∀ route ∈ if srv.settings.metricsEnabled then
      [⟨"/metrics".toList, pure .file⟩] else ([] : List Route), Earns srv r [] route.handler := by
    split_ifs
    · rintro _ hroute
      obtain rfl := List.mem_singleton.mp hroute
      exact earns_pure trivial
    · exact fun _ h => absurd h List.not_mem_nil
  rw [routes, List.forall_mem_append]
  refine ⟨?_, fun route hroute _ => hmetrics route hroute⟩
  simp only [List.forall_mem_cons]
  refine ⟨fun _ => earns_pure trivial, fun _ => earns_pure trivial, fun _ => earns_handleRoot,
    fun _ => earns_handleDocsPage, fun _ => earns_handleOpenAPISpec, fun _ => earns_handleLoginPage,
    fun _ => earns_handleBrowserLogout, fun _ => earns_handleAdmin,
    fun _ => earns_atPath earns_queryPage, fun _ => earns_formPage, fun _ => earns_handleSecretPage,
    fun _ => earns_handleStatusPage, fun _ => earns_handleStatusPage, fun _ => earns_formPage,
    fun _ => earns_atPath earns_queryPage, fun _ => earns_formPage,
    fun _ => earns_handleUserDetailPage, fun _ => earns_handleAccountPage,
    fun _ => earns_handleEmailSettingsPage, fun _ => earns_handlePublicExperiencePage,
    fun _ => earns_handlePublicExperiencePreview, fun _ => earns_atPath earns_queryPage,
    fun _ => earns_formPage, fun _ => earns_handleAPIClientDetailPage,
    fun _ => earns_handleRecipientPage, fun _ => earns_handleErrorPage, fun _ => earns_handleLogin,
    fun _ => earns_handleLogout, fun _ => earns_handleMe, fun _ => earns_handleThemePreference,
    fun _ => earns_handleChangePassword, fun _ => earns_handleMySessions,
    fun _ => earns_handleRevokeOtherSessions, fun _ => earns_handleDashboardAPI,
    fun _ => earns_handleManualCleanup, fun _ => earns_handleEmailSettingsAPI,
    fun _ => earns_handleEmailSettingsActionAPI, fun _ => earns_handlePublicExperienceAPI,
    fun _ => earns_handleUsersAPI, fun _ => earns_handleUserAPI,
    fun _ => earns_handleAPIClientsAPI, fun _ => earns_handleAPIClientAPI,
    fun _ => earns_handleSecretLinks, fun _ => earns_handleSecretLinkSendEmail,
    fun _ => earns_handleSecretLinkByID, fun _ => earns_handlePrepare,
    fun _ => earns_handleConsume, fun _ => earns_pure trivial, fun _ => earns_handleReady,
    fun _ => earns_handleVersion, fun _ h => absurd h List.not_mem_nil⟩

theorem earned_of_ends {rely : Store → Store → Prop} {s : Store}
    {events : List (Event Store Op Op.Answer)}
    (hends : Program.Ends (act srv) rely s (serve srv r) events response) :
    response.Earned srv r (events.map Event.call) := by
  have hearned := (serve_earns [] (List.Subset.refl _)).ends possible_of_act hends
  rwa [freeContract, Contract.learnt_ofCalls, List.nil_append] at hearned

end

end SecureShare.Handlers
