import SecureShare.Handlers.Policy
import SecureShare.Handlers.Routes

/-!
# Complete mediation

Every route keeps the policy: whatever the server calls, it has been permitted by the calls
before. Most handlers ask once who acts and then call what this actor may have called; a
change of the password and the reveal of a secret are followed call by call.
-/
namespace SecureShare.Handlers
open Go Library Http
open Auth (User Session Actor)
open Delivery (UUID Bytes ConsumeCandidate storable)

/-- The policy, for operations of the kind `K` only. -/
def policyContract (srv : Server) (r : Request) (K : Calls → Op → Prop) :
    Contract Op Op.Answer Calls :=
  .ofCalls (fun calls op => Allowed srv r calls op ∧ K calls op) Possible

/-- From these calls on, the program keeps the policy. -/
def MediatedFrom (srv : Server) (r : Request) (K : Calls → Op → Prop) (calls : Calls) {α : Type}
    (p : Prog α) : Prop :=
  p.Meets (policyContract srv r K) (fun _ _ => True) calls

def Mediated (srv : Server) (r : Request) (K : Calls → Op → Prop) {α : Type} (p : Prog α) : Prop :=
  ∀ calls, MediatedFrom srv r K calls p

/-- The operation is allowed as long as `I` holds of the calls. -/
def Under (srv : Server) (r : Request) (K : Calls → Op → Prop) (I : Calls → Prop) (op : Op) : Prop :=
  ∀ calls, I calls → Allowed srv r calls op ∧ K calls op

/-- The operations of pages. -/
def Op.Shows : Op → Prop
  | .sessionByHash _ | .query _ | .metadata _ | .userByID _ | .apiClientByID _ | .getEmailSettings
  | .getPublicSettings => True
  | _ => False

/-- The kind of these operations. -/
def Showing (_ : Calls) (op : Op) : Prop := op.Shows

/-- `requireAPI` has accepted the actor. -/
def Accepted (srv : Server) (r : Request) (permission : Text) (actor : Actor) (calls : Calls) : Prop :=
  Acting srv r calls permission actor ∧ Named actor ∧
    (isStateChanging r.method = true → Authorised srv r calls)

/-- What holds of some calls holds of more. -/
def Lasting (I : Calls → Prop) : Prop := ∀ calls calls', calls ⊆ calls' → I calls → I calls'

section
variable {srv : Server} {r : Request} {K : Calls → Op → Prop} {calls : Calls} {α : Type} {permission : Text}
  {I J : Calls → Prop}

theorem policy_admits :
    Admits srv r (fun calls op => Allowed srv r calls op ∧ Recordable r calls op) Possible where
  now _ := ⟨⟨trivial, .inl trivial⟩, trivial⟩
  session _ _ hid := ⟨⟨hid, .inl trivial⟩, trivial⟩
  client _ _ secret hbasic := ⟨⟨⟨secret, hbasic⟩, .inl trivial⟩, trivial⟩
  touch _ permission client hfound :=
    ⟨⟨⟨permission, client, hfound, rfl⟩, .inr (.inl ⟨permission, client, hfound, rfl⟩)⟩, trivial⟩
  sessionNamed _ _ h := h
  clientNamed _ _ h := h

/-- What pages call changes nothing. -/
theorem under_showing {op : Op} (hop : op.Shows)
    (h : ∀ calls, I calls → Permitted srv r calls op) : Under srv r Showing I op := by
  have hkeeps : op.Keeps := by
    cases op <;> trivial
  exact fun calls hI => ⟨⟨h calls hI, .inl hkeeps⟩, hop⟩

theorem under_reading {op : Op} (hop : op.Reads) (h : ∀ calls, I calls → Permitted srv r calls op) :
    Under srv r (Recordable r) I op := by
  have hkeeps : op.Keeps := by
    cases op <;> first | exact hop | exact hop.elim
  have hrecord : ∀ calls, Recordable r calls op := by
    intro calls
    cases op <;> trivial
  exact fun calls hI => ⟨⟨h calls hI, .inl hkeeps⟩, hrecord calls⟩

theorem under_changing {op : Op} (hop : op.part.isSome = true)
    (hI : ∀ calls, I calls → MayChange srv r calls)
    (h : ∀ calls, I calls → Permitted srv r calls op) : Under srv r (Recordable r) I op := by
  have hrecord : ∀ calls, Recordable r calls op := by
    intro calls
    cases op <;> trivial
  exact fun calls hcalls => ⟨⟨h calls hcalls, .inr (.inr (hI calls hcalls))⟩, hrecord calls⟩

theorem mayChange_of_csrf {session : Session} (hcsrf : srv.validCSRF r session = true)
    (h : SessionFound srv r calls session) : MayChange srv r calls :=
  .inl (.inr (.inr ⟨session, h, hcsrf⟩))

theorem mayChange_of_accepted {actor : Actor} (hmethod : isStateChanging r.method = true)
    (h : Accepted srv r permission actor calls) : MayChange srv r calls :=
  .inl (h.2.2 hmethod)

theorem Lasting.true : Lasting fun _ => True := fun _ _ _ _ => trivial

theorem recordable_of_shows {op : Op} (h : op.Shows) : Recordable r calls op := by
  cases op <;> trivial

theorem Under.recordable {op : Op} (h : Under srv r Showing I op) :
    Under srv r (Recordable r) I op :=
  fun calls hI => ⟨(h calls hI).1, recordable_of_shows (h calls hI).2⟩

theorem lasting_accepted {actor : Actor} : Lasting (Accepted srv r permission actor) :=
  fun _ _ hsub h => ⟨h.1.mono hsub, h.2.1, fun hchanging => (h.2.2 hchanging).mono hsub⟩

theorem lasting_sessionFound {session : Session} :
    Lasting fun calls => SessionFound srv r calls session :=
  fun _ _ hsub h => h.mono hsub

theorem Lasting.and (hI : Lasting I) (hJ : Lasting J) : Lasting fun calls => I calls ∧ J calls :=
  fun _ _ hsub h => ⟨hI _ _ hsub h.1, hJ _ _ hsub h.2⟩

theorem lasting_authenticated {user : User} :
    Lasting fun calls => Authenticated srv r calls user := by
  rintro calls calls' hsub ⟨login, record, password, hfound, hrest⟩
  exact ⟨login, record, password, hsub hfound, hrest⟩

/-- A program of operations that are allowed under what is known. -/
theorem MediatedFrom.of_uses {p : Prog α} (h : p.Uses (Under srv r K I)) (hI : Lasting I)
    (hcalls : I calls) : MediatedFrom srv r K calls p :=
  (h.meets hcalls (fun _ _ hI hop => hop _ hI) fun _ _ _ h _ =>
    hI _ _ (List.subset_append_left _ _) h).mono fun _ _ _ => trivial

theorem Mediated.of_uses {p : Prog α} (h : p.Uses (Under srv r K fun _ => True)) :
    Mediated srv r K p :=
  fun _ => .of_uses h .true trivial

theorem Mediated.of_pure (a : α) : Mediated srv r K (pure a : Prog α) := fun _ => trivial

/-! ### The checks of the handlers -/

/-- A handler that `requireAPI` guards. -/
theorem mediated_withActor {next : Actor → Prog Response}
    (h : ∀ actor calls, Accepted srv r permission actor calls →
      MediatedFrom srv r (Recordable r) calls (next actor)) :
    Mediated srv r (Recordable r) (withActor srv r permission next) := by
  intro calls
  refine meets_withOk (requireAPI_meets policy_admits) (fun _ _ _ => trivial)
    fun calls actor hactor => ?_
  exact h actor calls (hactor actor rfl)

theorem mediated_api {next : Actor → Prog Response}
    (h : ∀ actor, Named actor →
      (next actor).Uses (Under srv r (Recordable r) (Accepted srv r permission actor))) :
    Mediated srv r (Recordable r) (withActor srv r permission next) :=
  mediated_withActor fun actor _ hactor => .of_uses (h actor hactor.2.1) lasting_accepted hactor

theorem mediated_withSession {failed : Response} {next : Session → Prog Response}
    (hK : ∀ calls id, K calls (.sessionByHash id))
    (h : ∀ session, Named (sessionActor session) →
      (next session).Uses (Under srv r K fun calls => SessionFound srv r calls session)) :
    Mediated srv r K (withSome (fromRequest srv r) failed next) := by
  intro calls
  refine meets_withSome (fromRequest_meets fun _ id hid => ⟨⟨hid, .inl trivial⟩, hK _ id⟩)
    (fun _ _ => trivial) fun calls session hfound => ?_
  obtain ⟨hsession, _, hnamed⟩ := hfound session rfl
  exact MediatedFrom.of_uses (h session hnamed) lasting_sessionFound hsession

theorem mediated_withPage {next : Session → Prog Response}
    (h : ∀ session, permission ∈ session.permissions →
      (next session).Uses (Under srv r Showing fun calls => SessionFound srv r calls session)) :
    Mediated srv r Showing (withPage srv r permission next) := by
  refine mediated_withSession (fun _ _ => trivial) fun session hnamed => ?_
  split_ifs with hpermission
  · exact h session hpermission
  · exact Program.uses_pure

theorem mediated_atPath {path : String} {next : Prog Response} (h : Mediated srv r K next) :
    Mediated srv r K (atPath r path next) := by
  unfold atPath
  split_ifs
  · exact h
  · exact .of_pure _

/-- The answer to another method. -/
theorem mediated_method {method : Method} {next : Prog Response}
    (h : r.method = method → Mediated srv r K next) :
    Mediated srv r K (if r.method ≠ method then pure methodNotAllowed else next) := by
  split_ifs with hmethod
  · exact .of_pure _
  · exact h (not_not.mp hmethod)

/-! ### What anyone may have called -/

theorem under_fromRequest : (fromRequest srv r).Uses (Under srv r Showing I) :=
  uses_fromRequest fun _ hid => under_showing trivial fun _ _ => hid

theorem under_render {template : String} : (render srv r template).Uses (Under srv r Showing I) :=
  under_fromRequest.bind fun _ => Program.uses_pure

theorem under_renderPageError {status : ℕ} : (renderPageError srv r status).Uses (Under srv r Showing I) :=
  under_fromRequest.bind fun _ => Program.uses_pure

theorem under_dependencyState : dependencyState.Uses (Under srv r Showing I) :=
  uses_dependencyState (under_showing trivial fun _ _ => trivial)
    (under_showing trivial fun _ _ => trivial)

theorem under_currentPublicSettings : currentPublicSettings.Uses (Under srv r Showing I) :=
  uses_currentPublicSettings (under_showing trivial fun _ _ => trivial)

theorem mediated_pageNotFound : Mediated srv r Showing (pageNotFound srv r) :=
  mediated_withSession (fun _ _ => trivial) fun _ _ => Program.uses_pure

/-! ### Pages -/

theorem mediated_handleRoot : Mediated srv r Showing (handleRoot srv r) := by
  unfold handleRoot
  split_ifs
  · exact mediated_pageNotFound
  · exact .of_pure _

theorem mediated_handleLoginPage : Mediated srv r Showing (handleLoginPage srv r) :=
  mediated_method fun _ => (mediated_withSession (fun _ _ => trivial) fun _ _ => Program.uses_pure)

/-- A session of a page, as one who acts. -/
theorem granted_of_sessionFound {permission : String} {session : Session}
    (hpermission : permission.toList ∈ session.permissions)
    (h : SessionFound srv r calls session) : Granted srv r calls permission :=
  ⟨_, .session session h hpermission⟩

theorem mediated_queryPage {permission template : String} {q : Query}
    (h : ∀ calls, Granted srv r calls permission → Permitted srv r calls (.query q)) :
    Mediated srv r Showing (queryPage srv r permission q template) :=
  mediated_withPage fun _ hpermission =>
    uses_call (under_showing trivial fun calls hfound =>
      h calls (granted_of_sessionFound hpermission hfound))
      fun _ => under_render

theorem mediated_handleSecretListPage : Mediated srv r Showing (handleSecretListPage srv r) :=
  mediated_atPath (mediated_queryPage fun _ h => h)

theorem mediated_handleUsersPage : Mediated srv r Showing (handleUsersPage srv r) :=
  mediated_atPath (mediated_queryPage fun _ h => h)

theorem mediated_handleAPIClientsPage : Mediated srv r Showing (handleAPIClientsPage srv r) :=
  mediated_atPath (mediated_queryPage fun _ h => h)

theorem mediated_formPage {permission template : String} :
    Mediated srv r Showing (formPage srv r permission template) :=
  mediated_withPage fun _ _ => under_render

theorem mediated_statePage {permission template : String}
    (h : ∀ calls, Granted srv r calls permission → Permitted srv r calls (.query .dashboard)) :
    Mediated srv r Showing (withPage srv r permission.toList fun _ => do
      let _ ← perform (.query .dashboard)
      dependencyState
      render srv r template) :=
  mediated_withPage fun _ hpermission =>
    uses_call (under_showing trivial fun calls hfound =>
      h calls (granted_of_sessionFound hpermission hfound))
      fun _ => under_dependencyState.bind fun _ => under_render

theorem mediated_handleAdmin : Mediated srv r Showing (handleAdmin srv r) := by
  unfold handleAdmin
  split_ifs
  · exact mediated_pageNotFound
  · exact mediated_statePage fun _ => .inl

theorem mediated_handleStatusPage : Mediated srv r Showing (handleStatusPage srv r) := by
  unfold handleStatusPage
  split_ifs
  · exact .of_uses under_renderPageError
  · exact mediated_statePage fun _ h => .inr (.inl h)

theorem mediated_handleSecretPage : Mediated srv r Showing (handleSecretPage srv r) := by
  refine mediated_withPage fun session hpermission => ?_
  split
  · exact under_renderPageError
  · refine uses_call (under_showing trivial fun _ hfound =>
      .inl (granted_of_sessionFound hpermission hfound)) fun row => ?_
    split_ifs
    · exact under_renderPageError
    · exact uses_call (under_showing trivial fun _ hfound =>
        granted_of_sessionFound hpermission hfound) fun _ => under_render

theorem mediated_handleUserDetailPage : Mediated srv r Showing (handleUserDetailPage srv r) := by
  refine mediated_withPage fun session hpermission => ?_
  split
  · exact under_renderPageError
  · refine uses_call (under_showing trivial fun _ hfound =>
      granted_of_sessionFound hpermission hfound) fun user => ?_
    split_ifs
    · exact under_renderPageError
    · exact under_render

theorem mediated_handleAPIClientDetailPage : Mediated srv r Showing (handleAPIClientDetailPage srv r) := by
  refine mediated_withPage fun session hpermission => ?_
  split
  · exact under_renderPageError
  · refine uses_call (under_showing trivial fun _ hfound =>
      granted_of_sessionFound hpermission hfound) fun client => ?_
    split_ifs
    · exact under_renderPageError
    · exact under_render

theorem mediated_withDocs {refused : Response} {next : Prog Response}
    (h : ∀ I, next.Uses (Under srv r Showing I)) : Mediated srv r Showing (withDocs srv r refused next) := by
  unfold withDocs
  split_ifs
  · exact .of_uses (h _)
  · refine mediated_withSession (fun _ _ => trivial) fun session hnamed => ?_
    split_ifs
    · exact h _
    · exact Program.uses_pure

theorem mediated_handleDocsPage : Mediated srv r Showing (handleDocsPage srv r) := by
  refine mediated_atPath (mediated_method fun _ => ?_)
  split_ifs
  · exact mediated_withDocs fun _ => uses_withSome under_fromRequest fun _ => under_render
  · exact .of_pure _

theorem mediated_handleOpenAPISpec : Mediated srv r Showing (handleOpenAPISpec srv r) :=
  mediated_method fun _ => (mediated_withDocs fun _ => Program.uses_pure)

theorem mediated_handleAccountPage : Mediated srv r Showing (handleAccountPage srv r) :=
  mediated_withPage fun session _ =>
    uses_call (under_showing trivial fun _ hfound => ⟨session, hfound, rfl⟩) fun _ => under_render

theorem under_safeEmailSettings (h : ∀ calls, I calls → MayEmail srv r calls) :
    safeEmailSettings.Uses (Under srv r Showing I) :=
  uses_safeEmailSettings (under_showing trivial h)

theorem mediated_handleEmailSettingsPage : Mediated srv r Showing (handleEmailSettingsPage srv r) :=
  mediated_atPath (mediated_withPage fun _ hpermission =>
    (under_safeEmailSettings fun _ hfound =>
      .inl (granted_of_sessionFound hpermission hfound)).bind fun _ => under_render)

theorem mediated_handlePublicExperiencePage :
    Mediated srv r Showing (handlePublicExperiencePage srv r) := by
  refine mediated_atPath (mediated_withPage fun _ _ =>
    under_currentPublicSettings.bind fun settings => ?_)
  split_ifs
  · exact under_renderPageError
  · exact under_render

theorem mediated_handlePublicExperiencePreview :
    Mediated srv r Showing (handlePublicExperiencePreview srv r) := by
  unfold handlePublicExperiencePreview
  split_ifs
  · exact .of_pure _
  · refine mediated_withPage fun _ _ => ?_
    split
    · exact Program.uses_pure
    · refine under_currentPublicSettings.bind fun settings => ?_
      split_ifs
      · exact under_renderPageError
      · exact Program.uses_pure

theorem mediated_handleRecipientPage : Mediated srv r Showing (handleRecipientPage r) :=
  mediated_method fun _ => (.of_uses (under_currentPublicSettings.bind fun _ => Program.uses_pure))

theorem mediated_handleErrorPage : Mediated srv r Showing (handleErrorPage srv r) :=
  .of_uses (under_fromRequest.bind fun _ => Program.uses_pure)

/-! ### Accounts -/

theorem wellFormed {id : Option UUID} {actorID type result ipHash : Text} {requestID : ByteString}
    (hactor : storable 255 actorID) (htype : type ∈ auditEventTypes) (hresult : storable 64 result)
    (hip : storable 128 ipHash) :
    AuditEventRecord.WellFormed ⟨id, actorID, type, result, ipHash, requestID⟩ :=
  ⟨hactor, htype, hresult, hip⟩

/-- A record whose link, if it names one, has been seen. -/
theorem under_recordAudit {e : AuditEventRecord} (he : e.WellFormed)
    (hrequest : e.requestID = r.requestID ∨ e.requestID = [])
    (hlink : ∀ calls, I calls → ∀ id ∈ e.deliveryID,
      LinkSeen calls id ∨ e.type = "secret.revoked".toList) :
    (recordAudit e).Uses (Under srv r (Recordable r) I) := by
  refine uses_call (fun calls hI => ⟨⟨trivial, .inl trivial⟩, ?_, hrequest, hlink calls hI⟩)
    fun _ => Program.uses_pure
  have hresult : storable 64 (if e.result = [] then "success".toList else e.result) := by
    split_ifs
    · exact (by decide : storable 64 "success".toList)
    · exact he.result
  exact ⟨he.actorID, he.type, hresult, he.ipHash⟩

/-- A record of the request. -/
theorem under_requestRecord {actorID type result : Text} (hactor : storable 255 actorID)
    (htype : type ∈ auditEventTypes) (hresult : storable 64 result) :
    (recordAudit (requestRecord srv r actorID type result)).Uses (Under srv r (Recordable r) I) := by
  refine under_recordAudit ⟨hactor, htype, hresult, storable_ipHash⟩ (.inl rfl) ?_
  rintro _ _ _ ⟨⟩

/-- A result after a record, once the link has been seen. -/
theorem MediatedFrom.recordAudit {e : AuditEventRecord} {a : α} (he : e.WellFormed)
    (hrequest : e.requestID = r.requestID ∨ e.requestID = [])
    (hlink : ∀ id ∈ e.deliveryID, LinkSeen calls id) :
    MediatedFrom srv r (Recordable r) calls (recordAudit e >>= fun _ => pure a) := by
  have hlasting : Lasting fun calls => ∀ id ∈ e.deliveryID, LinkSeen calls id :=
    fun _ _ hsub h id hid => (h id hid).mono hsub
  exact .of_uses ((under_recordAudit he hrequest fun _ h id hid => .inl (h id hid)).bind
    fun _ => Program.uses_pure) hlasting hlink

/-- An answer after a record of the request. -/
theorem under_audited {actorID type result : Text} {a : α} (hactor : storable 255 actorID)
    (htype : type ∈ auditEventTypes) (hresult : storable 64 result) :
    (recordAudit (requestRecord srv r actorID type result) >>= fun _ => pure a).Uses
      (Under srv r (Recordable r) I) :=
  (under_requestRecord hactor htype hresult).bind fun _ => Program.uses_pure

theorem under_destroy (hI : ∀ calls, I calls → MayChange srv r calls) :
    (destroy srv r).Uses (Under srv r (Recordable r) I) := by
  unfold destroy
  split
  · exact Program.uses_pure
  · next id hid =>
    refine uses_call ?_ fun _ => Program.uses_pure
    exact under_changing rfl hI fun _ _ => ⟨id, hid, rfl⟩

theorem mediated_withLogin {next : Bool → Text → Text → Prog Response}
    (h : ∀ isJSON login password, Submitted r password → Mediated srv r K (next isJSON login password)) :
    Mediated srv r K (withLogin r next) := by
  intro calls
  unfold withLogin
  split_ifs
  · refine meets_decodeJSON (fun _ _ _ _ => trivial) fun body hbody => ?_
    exact h _ _ _ (.inl ⟨body, hbody, rfl⟩) calls
  · exact h _ _ _ (.inr (.inl rfl)) calls
  · trivial

theorem MediatedFrom.withLimit {limiter : Limiter} {key : Text} {limited : Response}
    {next : Prog Response}
    (h : ∀ calls', calls ⊆ calls' → Passed calls' limiter → MediatedFrom srv r (Recordable r) calls' next) :
    MediatedFrom srv r (Recordable r) calls (withLimit limiter key limited next) := by
  refine meets_call ⟨⟨trivial, .inl trivial⟩, trivial⟩ fun allowed _ => ?_
  split_ifs with hallowed
  · refine h _ (List.subset_append_left _ _) ⟨key, List.mem_append_right _ ?_⟩
    obtain rfl : allowed = some true := by
      cases allowed with
      | none => cases hallowed
      | some allowed => exact congrArg some hallowed
    exact List.mem_singleton.mpr rfl
  · trivial

theorem authenticate_meets {login password : Text}
    (hlogin : Permitted srv r calls (.userForLogin login)) (hpassword : Submitted r password) :
    (authenticate srv login password).Meets (policyContract srv r (Recordable r))
      (fun calls result => ∀ user, result = .accepted user → Authenticated srv r calls user ∧
        storable 255 user.username) calls := by
  refine meets_call ⟨⟨hlogin, .inl trivial⟩, trivial⟩ fun found hpossible => ?_
  match found with
  | none => simp
  | some none => simp
  | some (some record) =>
    dsimp only
    split_ifs with haccepted
    · rintro _ ⟨⟩
      refine ⟨⟨login, record, password, ?_, haccepted.1, hpassword, haccepted.2, rfl⟩,
        hpossible _ rfl record rfl⟩
      exact List.mem_append_right _ (List.mem_singleton.mpr rfl)
    · simp

/-- The calls of `startSession`. -/
theorem under_startSession {user : User} {isJSON : Bool} (hpath : ¬NeedsSession r)
    (hname : storable 255 user.username) :
    (startSession srv r user isJSON).Uses
      (Under srv r (Recordable r) fun calls => Authenticated srv r calls user) := by
  refine (under_destroy fun _ _ => .inr hpath).bind fun _ => uses_withSome ?_ fun session => ?_
  · exact Program.uses_perform.mpr (under_changing rfl (fun _ _ => .inr hpath) fun _ h => h)
  · refine uses_call ?_ fun _ => under_audited hname (by decide) (by decide)
    exact under_changing rfl (fun _ _ => .inr hpath) fun _ h => ⟨user, h, rfl⟩

theorem mediated_handleLogin (hpath : ¬NeedsSession r) :
    Mediated srv r (Recordable r) (handleLogin srv r) := by
  refine mediated_method fun _ => mediated_withLogin fun isJSON login password hpassword calls => ?_
  refine MediatedFrom.withLimit fun calls _ hpassed => ?_
  refine (authenticate_meets (.inl hpassed) hpassword).bind fun calls result hresult => ?_
  cases result with
  | unavailable => trivial
  | rejected =>
      exact MediatedFrom.of_uses (under_audited (by decide) (by decide) (by decide)) .true trivial
  | accepted user =>
      obtain ⟨huser, hname⟩ := hresult user rfl
      exact MediatedFrom.of_uses (under_startSession hpath hname) lasting_authenticated huser

theorem under_endSession {session : Session} {response : Response}
    (hname : storable 255 session.username) (hcsrf : srv.validCSRF r session = true) :
    (endSession srv r session response).Uses
      (Under srv r (Recordable r) fun calls => SessionFound srv r calls session) :=
  (under_requestRecord hname (by decide) (by decide)).bind fun _ =>
    (under_destroy fun _ => mayChange_of_csrf hcsrf).bind fun _ => Program.uses_pure

theorem mediated_handleLogout : Mediated srv r (Recordable r) (handleLogout srv r) := by
  refine mediated_method fun _ => ?_
  split_ifs
  · exact .of_pure _
  · refine mediated_withSession (fun _ _ => trivial) fun session hnamed => ?_
    split_ifs with hcsrf
    · exact under_endSession hnamed.2 hcsrf
    · exact Program.uses_pure

theorem mediated_handleBrowserLogout : Mediated srv r (Recordable r) (handleBrowserLogout srv r) := by
  refine mediated_method fun _ => mediated_withSession (fun _ _ => trivial) fun session hnamed => ?_
  split_ifs with hcsrf
  · exact under_endSession hnamed.2 hcsrf
  · exact Program.uses_pure

theorem mediated_handleMe : Mediated srv r (Recordable r) (handleMe srv r) :=
  mediated_method fun _ => mediated_withSession (fun _ _ => trivial) fun _ _ => Program.uses_pure

theorem mediated_handleThemePreference : Mediated srv r (Recordable r) (handleThemePreference srv r) := by
  refine mediated_withSession (fun _ _ => trivial) fun session hnamed => ?_
  split_ifs with hpermission _ _ hcsrf
  · exact Program.uses_pure
  · exact Program.uses_pure
  · refine uses_decodeJSON fun body _ => ?_
    split
    · exact Program.uses_pure
    · refine uses_withSome (Program.uses_perform.mpr ?_) fun _ => Program.uses_pure
      exact under_changing rfl (fun _ => mayChange_of_csrf hcsrf) fun _ h =>
        ⟨_, .session session h hpermission, rfl⟩
  · exact Program.uses_pure
  · exact Program.uses_pure

/-- A change of the own password, once the current one has been accepted. -/
theorem under_changePassword {actor : Actor} {user : User} {password : Text}
    (hmethod : isStateChanging r.method = true) (hname : storable 255 actor.username)
    (hid : user.id = actor.userID) :
    (changePassword srv r actor user password).Uses (Under srv r (Recordable r) fun calls =>
      Accepted srv r "account:manage".toList actor calls ∧ Authenticated srv r calls user) := by
  have hI : ∀ calls, Accepted srv r "account:manage".toList actor calls ∧
      Authenticated srv r calls user → MayChange srv r calls :=
    fun _ h => mayChange_of_accepted hmethod h.1
  refine uses_withSome (Program.uses_perform.mpr ?_) fun _ => uses_call ?_ fun _ =>
    (under_destroy hI).bind fun _ => uses_withSome (Program.uses_perform.mpr ?_) fun _ =>
      under_audited hname (by decide) (by decide)
  · exact under_changing rfl hI fun _ h => .inr ⟨⟨actor, h.1.1, rfl⟩, user, h.2, hid⟩
  · exact under_changing rfl hI fun _ h => ⟨actor, h.1.1, rfl, rfl⟩
  · exact under_changing rfl hI fun _ h => h.2

theorem mediated_handleChangePassword : Mediated srv r (Recordable r) (handleChangePassword srv r) := by
  refine mediated_method fun hmethod => mediated_withActor fun actor calls haccepted => ?_
  have hchanging : isStateChanging r.method = true := by
    rw [hmethod]
    rfl
  refine meets_decodeJSON (fun _ _ _ _ => trivial) fun body hbody => ?_
  have hlogin : Permitted srv r calls (.userForLogin actor.username) :=
    .inr ⟨actor, haccepted.1, rfl⟩
  have hpassword : Submitted r body.1 := .inr (.inr ⟨body.2, hbody⟩)
  refine (authenticate_meets hlogin hpassword).grows.bind fun calls' result hresult => ?_
  cases result with
  | unavailable => trivial
  | rejected => trivial
  | accepted user =>
      dsimp only
      split_ifs with hid
      · trivial
      · exact MediatedFrom.of_uses (under_changePassword hchanging haccepted.2.1.2
          (not_not.mp hid)) (lasting_accepted.and lasting_authenticated)
          ⟨lasting_accepted _ _ hresult.1 haccepted, (hresult.2 user rfl).1⟩
      · trivial

theorem mediated_handleMySessions : Mediated srv r (Recordable r) (handleMySessions srv r) :=
  mediated_method fun _ => mediated_withSession (fun _ _ => trivial) fun session _ =>
    uses_withSome (Program.uses_perform.mpr
      (under_reading trivial fun _ h => ⟨session, h, rfl⟩)) fun _ => Program.uses_pure

theorem mediated_post {next : Actor → Prog Response}
    (h : isStateChanging r.method = true → ∀ actor, Named actor →
      (next actor).Uses (Under srv r (Recordable r) (Accepted srv r permission actor))) :
    Mediated srv r (Recordable r) (if r.method ≠ .post then pure methodNotAllowed
      else withActor srv r permission next) := by
  refine mediated_method fun hmethod => mediated_api (h ?_)
  rw [hmethod]
  rfl

theorem mediated_handleRevokeOtherSessions :
    Mediated srv r (Recordable r) (handleRevokeOtherSessions srv r) := by
  refine mediated_post fun hmethod actor hnamed => ?_
  refine uses_withSome (Program.uses_perform.mpr ?_) fun _ =>
    under_audited hnamed.2 (by decide) (by decide)
  exact under_changing rfl (fun _ => mayChange_of_accepted hmethod) fun _ h => ⟨actor, h.1, rfl, rfl⟩

/-! ### Users and API clients -/

/-- An operation that the permission of the actor allows. -/
theorem under_accepted {permission : String} {actor : Actor} {op : Op}
    (hop : op.part.isSome = true) (hmethod : isStateChanging r.method = true)
    (h : ∀ calls, Granted srv r calls permission → Permitted srv r calls op) :
    (perform op).Uses (Under srv r (Recordable r) (Accepted srv r permission.toList actor)) :=
  Program.uses_perform.mpr (under_changing hop (fun _ => mayChange_of_accepted hmethod)
    fun calls haccepted => h calls ⟨actor, haccepted.1⟩)

/-- The same for one that changes nothing. -/
theorem under_granted {permission : String} {actor : Actor} {op : Op} (hop : op.Reads)
    (h : ∀ calls, Granted srv r calls permission → Permitted srv r calls op) :
    (perform op).Uses (Under srv r (Recordable r) (Accepted srv r permission.toList actor)) :=
  Program.uses_perform.mpr (under_reading hop fun calls haccepted => h calls ⟨actor, haccepted.1⟩)

theorem under_answerQuery {permission : String} {actor : Actor} {q : Query}
    (h : ∀ calls, Granted srv r calls permission → Permitted srv r calls (.query q)) :
    (answerQuery q).Uses (Under srv r (Recordable r) (Accepted srv r permission.toList actor)) :=
  uses_withSome (under_granted trivial h) fun _ => Program.uses_pure

theorem changing_of_post (h : r.method = .post) : isStateChanging r.method = true := by
  rw [h]
  rfl

theorem mediated_handleUsersAPI : Mediated srv r (Recordable r) (handleUsersAPI srv r) := by
  refine mediated_atPath (mediated_api fun actor hnamed => ?_)
  split
  · exact under_answerQuery fun _ h => h
  · next hmethod =>
    refine uses_decodeJSON fun params _ => ?_
    split_ifs
    · exact uses_withSome (under_accepted rfl (changing_of_post hmethod) fun _ h => h)
        fun _ => under_audited hnamed.1 (by decide) (by decide)
    · exact Program.uses_pure
  · exact Program.uses_pure

theorem under_updateUser {actor : Actor} {id : UUID} {patch : Auth.UserPatch}
    (hmethod : isStateChanging r.method = true) : (updateUser srv id patch).Uses
      (Under srv r (Recordable r) (Accepted srv r "user:manage".toList actor)) := by
  have hfind : (perform (.userByID id)).Uses
      (Under srv r (Recordable r) (Accepted srv r "user:manage".toList actor)) :=
    under_granted trivial fun _ h => h
  refine hfind.bind fun found => ?_
  cases found with
  | none => exact Program.uses_pure
  | some current =>
      dsimp only
      split
      · exact Program.uses_pure
      · exact under_accepted rfl hmethod fun _ h => h

theorem uses_withIDPath {P : Op → Prop} {start : String} {next : UUID → Text → Prog Response}
    (h : ∀ id action, (next id action).Uses P) : (withIDPath srv r start next).Uses P := by
  unfold withIDPath
  dsimp only
  split
  · exact Program.uses_pure
  · exact h _ _

theorem mediated_handleUserAPI : Mediated srv r (Recordable r) (handleUserAPI srv r) := by
  refine mediated_api fun actor hnamed => uses_withIDPath fun id action => ?_
  split_ifs with hget hpatch hreset hdisable henable
  · exact uses_withSome (under_granted trivial fun _ h => h) fun _ => Program.uses_pure
  · refine uses_decodeJSON fun patch _ => uses_withSome (under_updateUser ?_) fun _ =>
      under_audited hnamed.1 (by decide) (by decide)
    rw [hpatch.2]
    rfl
  · refine uses_decodeJSON fun body _ => ?_
    split_ifs
    · exact uses_withSome (under_accepted rfl (changing_of_post hreset.2) fun _ h => .inl h)
        fun _ => under_audited hnamed.1 (by decide) (by decide)
    · exact Program.uses_pure
  · exact uses_withSome (under_updateUser (changing_of_post hdisable.2)) fun _ =>
      under_audited hnamed.1 (by decide) (by decide)
  · exact uses_withSome (under_updateUser (changing_of_post henable.2)) fun _ =>
      under_audited hnamed.1 (by decide) (by decide)
  · exact Program.uses_pure

theorem mediated_handleAPIClientsAPI : Mediated srv r (Recordable r) (handleAPIClientsAPI srv r) := by
  refine mediated_atPath (mediated_api fun actor hnamed => ?_)
  split
  · exact under_answerQuery fun _ h => h
  · next hmethod =>
    refine uses_decodeJSON fun body _ => ?_
    split
    · exact Program.uses_pure
    · exact uses_withSome (under_accepted rfl (changing_of_post hmethod) fun _ h => h)
        fun _ => under_audited hnamed.1 (by decide) (by decide)
  · exact Program.uses_pure

theorem under_setClientStatus {actor actor' : Actor} {id : UUID} {status : Auth.APIClientStatus}
    {type : String} (hmethod : isStateChanging r.method = true) (hnamed : Named actor')
    (htype : type.toList ∈ auditEventTypes) : (setClientStatus srv r actor' id status type).Uses
      (Under srv r (Recordable r) (Accepted srv r "api-client:manage".toList actor)) :=
  uses_withSome (under_accepted rfl hmethod fun _ h => h) fun _ =>
    under_audited hnamed.1 htype (by decide)

theorem under_withClient {actor : Actor} {id : UUID} {next : Auth.APIClient → Prog Response}
    (h : ∀ client, (next client).Uses
      (Under srv r (Recordable r) (Accepted srv r "api-client:manage".toList actor))) :
    (withClient id next).Uses
      (Under srv r (Recordable r) (Accepted srv r "api-client:manage".toList actor)) := by
  refine uses_withSome (under_granted trivial fun _ h => h) fun client => ?_
  split_ifs
  · exact Program.uses_pure
  · exact h client

theorem mediated_handleAPIClientAPI : Mediated srv r (Recordable r) (handleAPIClientAPI srv r) := by
  refine mediated_api fun actor hnamed => uses_withIDPath fun id action => ?_
  split_ifs with hget hdisable henable hrevoke hrotate
  · exact uses_withSome (under_granted trivial fun _ h => h) fun _ => Program.uses_pure
  · exact under_setClientStatus (changing_of_post hdisable.2) hnamed (by decide)
  · exact under_withClient fun _ =>
      under_setClientStatus (changing_of_post henable.2) hnamed (by decide)
  · exact under_setClientStatus (changing_of_post hrevoke.2) hnamed (by decide)
  · exact under_withClient fun _ => uses_withSome
      (under_accepted rfl (changing_of_post hrotate.2) fun _ h => h) fun _ =>
        under_audited hnamed.1 (by decide) (by decide)
  · exact Program.uses_pure

/-! ### Administration -/

theorem mediated_handleDashboardAPI : Mediated srv r (Recordable r) (handleDashboardAPI srv r) :=
  mediated_method fun _ => mediated_api fun _ _ =>
    uses_withSome (under_granted trivial fun _ h => .inr (.inr h)) fun _ =>
      (under_dependencyState.mono fun _ => Under.recordable).bind fun _ => Program.uses_pure

theorem mediated_handleManualCleanup : Mediated srv r (Recordable r) (handleManualCleanup srv r) :=
  mediated_post fun hmethod _ hnamed =>
    uses_withSome (under_accepted rfl hmethod fun _ h => h) fun _ =>
      under_audited hnamed.1 (by decide) (by decide)

theorem under_getEmailSettings {actor : Actor} : (perform .getEmailSettings).Uses
    (Under srv r (Recordable r) (Accepted srv r "email-settings:manage".toList actor)) :=
  under_granted trivial fun _ => .inl

theorem under_saveEmailSettings {actor : Actor} {settings : Email.StoredSettings}
    (hmethod : isStateChanging r.method = true) : (perform (.saveEmailSettings settings)).Uses
      (Under srv r (Recordable r) (Accepted srv r "email-settings:manage".toList actor)) :=
  under_accepted rfl hmethod fun _ h => h

theorem under_updateEmail {actor : Actor} {id : UUID} {req : Email.UpdateRequest}
    (hmethod : isStateChanging r.method = true) : (updateEmail srv id req).Uses
      (Under srv r (Recordable r) (Accepted srv r "email-settings:manage".toList actor)) := by
  refine under_getEmailSettings.bind fun stored => ?_
  cases stored with
  | none => exact Program.uses_pure
  | some stored =>
      have hnext : ∀ current, (nextCiphertext req current).Uses
          (Under srv r (Recordable r) (Accepted srv r "email-settings:manage".toList actor)) := by
        intro current
        unfold nextCiphertext
        split_ifs
        · exact Program.uses_pure
        · exact Program.uses_pure
        · exact under_granted trivial fun _ h => h
      refine (hnext _).bind fun ciphertext => ?_
      cases ciphertext with
      | none => exact Program.uses_pure
      | some ciphertext =>
          dsimp only
          split
          · exact Program.uses_pure
          · refine (under_saveEmailSettings hmethod).bind fun saved => ?_
            cases saved <;> exact Program.uses_pure

theorem mediated_handleEmailSettingsAPI : Mediated srv r (Recordable r) (handleEmailSettingsAPI srv r) := by
  refine mediated_atPath (mediated_api fun actor hnamed => ?_)
  split
  · exact uses_withSome ((under_safeEmailSettings fun _ h => .inl ⟨actor, h.1⟩).mono
      fun _ => Under.recordable) fun _ => Program.uses_pure
  · next hmethod =>
    have hchanging : isStateChanging r.method = true := by
      rw [hmethod]
      rfl
    refine uses_decodeJSON fun req _ => uses_withOk (under_updateEmail hchanging) fun result => ?_
    have hrecord : ∀ type : String, type.toList ∈ auditEventTypes →
        (recordEmailAudit srv r actor type "success".toList).Uses (Under srv r (Recordable r)
          (Accepted srv r "email-settings:manage".toList actor)) :=
      fun type htype => under_requestRecord hnamed.1 htype (by decide)
    refine (hrecord _ (by decide)).bind fun _ => ?_
    split_ifs
    · exact (hrecord _ (by decide)).bind fun _ => (hrecord _ (by decide)).bind
        fun _ => Program.uses_pure
    · exact (hrecord _ (by decide)).bind fun _ => Program.uses_pure
    · exact (hrecord _ (by decide)).bind fun _ => Program.uses_pure
    · exact Program.uses_pure
  · exact Program.uses_pure

theorem under_setEmailEnabled {actor : Actor} {id : UUID} {enabled : Bool}
    (hmethod : isStateChanging r.method = true) : (setEmailEnabled srv id enabled).Uses
      (Under srv r (Recordable r) (Accepted srv r "email-settings:manage".toList actor)) := by
  refine under_getEmailSettings.bind fun stored => ?_
  match stored with
  | none => exact Program.uses_pure
  | some none => exact Program.uses_pure
  | some (some current) =>
    dsimp only
    split
    · exact Program.uses_pure
    · refine (under_saveEmailSettings hmethod).bind fun saved => ?_
      cases saved <;> exact Program.uses_pure

theorem under_switchEmail {actor actor' : Actor} {enabled : Bool} {type : String}
    (hmethod : isStateChanging r.method = true) (hnamed : Named actor')
    (htype : type.toList ∈ auditEventTypes) : (switchEmail srv r actor' enabled type).Uses
      (Under srv r (Recordable r) (Accepted srv r "email-settings:manage".toList actor)) :=
  uses_withOk (under_setEmailEnabled hmethod) fun _ => under_audited hnamed.1 htype (by decide)

theorem under_sendWith {usable : Email.StoredSettings → Bool} {recipient : Option Text}
    (h : ∀ calls, I calls → MayEmail srv r calls) :
    (sendWith srv usable recipient).Uses (Under srv r (Recordable r) I) :=
  uses_sendWith (under_reading trivial h) (under_reading trivial h)

theorem under_answerTest {actor actor' : Actor} {usable : Email.StoredSettings → Bool}
    {recipient : Option Text} {type : String} (hnamed : Named actor')
    (hsucceeded : (type ++ "_succeeded").toList ∈ auditEventTypes)
    (hfailed : (type ++ "_failed").toList ∈ auditEventTypes) :
    (answerTest srv r actor' (sendWith srv usable recipient) type).Uses
      (Under srv r (Recordable r) (Accepted srv r "email-settings:manage".toList actor)) := by
  refine (under_sendWith fun _ h => .inl ⟨actor, h.1⟩).bind fun failure => ?_
  cases failure with
  | none => exact under_audited hnamed.1 hsucceeded (by decide)
  | some category => exact under_audited hnamed.1 hfailed (storable_category category)

theorem under_previewTemplate {actor : Actor} : (previewTemplate srv r).Uses
    (Under srv r (Recordable r) (Accepted srv r "email-settings:manage".toList actor)) := by
  refine uses_decodeJSON fun body _ => ?_
  refine ((under_safeEmailSettings fun _ h => .inl ⟨actor, h.1⟩).mono fun _ => Under.recordable).bind
    fun settings => ?_
  dsimp only
  split <;> exact Program.uses_pure

theorem mediated_handleEmailSettingsActionAPI :
    Mediated srv r (Recordable r) (handleEmailSettingsActionAPI srv r) := by
  refine mediated_api fun actor hnamed => ?_
  dsimp only
  split_ifs with htest hsend hpreview henable hdisable
  · exact under_answerTest hnamed (by decide) (by decide)
  · refine uses_withLimit (under_reading trivial fun _ _ => trivial) ?_
    exact uses_decodeJSON fun _ _ => under_answerTest hnamed (by decide) (by decide)
  · exact under_previewTemplate
  · exact under_switchEmail (changing_of_post henable.2) hnamed (by decide)
  · exact under_switchEmail (changing_of_post hdisable.2) hnamed (by decide)
  · exact Program.uses_pure

theorem under_updateLocale {session : Session}
    (hpermission : "public-experience:manage".toList ∈ session.permissions)
    (hnamed : Named (sessionActor session)) (hcsrf : srv.validCSRF r session = true) : (updateLocale srv r session).Uses
      (Under srv r (Recordable r) fun calls => SessionFound srv r calls session) := by
  refine uses_decodeJSON fun locale _ => uses_withOk ?_ fun settings =>
    under_audited hnamed.1 (by decide) (by cases settings.publicLocale <;> decide)
  unfold updatePublicSettings
  split
  · exact Program.uses_pure
  · refine (under_currentPublicSettings.mono fun _ => Under.recordable).bind fun current => ?_
    cases current with
    | none => exact Program.uses_pure
    | some current =>
        refine uses_call ?_ fun saved => ?_
        · exact under_changing rfl (fun _ => mayChange_of_csrf hcsrf)
            fun _ => granted_of_sessionFound hpermission
        · cases saved <;> exact Program.uses_pure

theorem mediated_handlePublicExperienceAPI :
    Mediated srv r (Recordable r) (handlePublicExperienceAPI srv r) := by
  refine mediated_atPath (mediated_withSession (fun _ _ => trivial) fun session hnamed => ?_)
  have hread : (withSome currentPublicSettings internalError fun settings =>
      pure (Response.json 200 (.publicSettings settings))).Uses
        (Under srv r (Recordable r) fun calls => SessionFound srv r calls session) :=
    uses_withSome (under_currentPublicSettings.mono fun _ => Under.recordable) fun _ => Program.uses_pure
  split_ifs with hpermission hcsrf
  · split
    · exact hread
    · exact under_updateLocale hpermission hnamed hcsrf
    · exact Program.uses_pure
  · split
    · exact hread
    · exact Program.uses_pure
    · exact Program.uses_pure
  · exact Program.uses_pure

theorem mediated_handleReady : Mediated srv r (Recordable r) handleReady :=
  .of_uses (uses_withSome (Program.uses_perform.mpr (under_reading trivial fun _ _ => trivial))
    fun _ => uses_withSome (Program.uses_perform.mpr (under_reading trivial fun _ _ => trivial))
      fun _ => Program.uses_pure)

theorem mediated_handleVersion : Mediated srv r (Recordable r) (handleVersion r) :=
  mediated_method fun _ => .of_pure _

/-! ### Links -/

theorem under_sendCreatedEmail {actor : Actor} {title : Text} {link : Delivery.CreateResponse}
    {plan : EmailDeliveryPlan} {retry : Bool} (hnamed : Named actor)
    (h : ∀ calls, I calls → MayEmail srv r calls) :
    (sendCreatedEmail srv r actor title link plan retry).Uses (Under srv r (Recordable r) I) := by
  have htypes : ∀ type ∈ emailEvents retry, type.toList ∈ auditEventTypes := by
    cases retry <;> decide
  exact uses_sendCreatedEmail (under_reading trivial h) (under_reading trivial h)
    (under_reading trivial fun _ _ => trivial) fun type htype result hresult =>
      under_requestRecord hnamed.1 (htypes type htype) hresult

theorem under_preflightEmailDelivery {plan : EmailDeliveryPlan} {title : Text} {expiresAt : ℤ}
    (h : ∀ calls, I calls → MayEmail srv r calls) :
    (preflightEmailDelivery srv plan title expiresAt).Uses (Under srv r (Recordable r) I) :=
  uses_preflightEmailDelivery (under_reading trivial h) (under_reading trivial fun _ _ => trivial)

/-- What is known of a create request that may send email. -/
theorem mayEmail_of_accepted {actor : Actor} (hallowed : emailActorAllowed srv actor = true)
    (h : Accepted srv r permission actor calls) : MayEmail srv r calls :=
  .inr ⟨permission, actor, h.1, hallowed⟩

theorem create_mediated {actor : Actor} {req : Delivery.CreateRequest}
    (hmethod : isStateChanging r.method = true)
    (haccepted : Accepted srv r "secret:create".toList actor calls) :
    MediatedFrom srv r (Recordable r) calls (create srv actor.actorID req) := by
  refine meets_call ⟨⟨⟨actor, haccepted.1, rfl⟩, .inl trivial⟩, trivial⟩ fun answer _ => ?_
  match answer with
  | none => trivial
  | some (.error e) => trivial
  | some (.ok (params, token)) =>
    have haccepted' := lasting_accepted _ (calls ++
      [⟨.insertParams actor.actorID req, some (.ok (params, token))⟩])
      (List.subset_append_left _ _) haccepted
    refine meets_call ⟨⟨⟨actor, req, token, haccepted'.1, ?_⟩,
      .inr (.inr (mayChange_of_accepted hmethod haccepted'))⟩, trivial⟩ fun inserted _ => ?_
    · exact List.mem_append_right _ (List.mem_singleton.mpr rfl)
    · cases inserted with
      | none => trivial
      | some inserted =>
          refine MediatedFrom.recordAudit (wellFormed haccepted.2.1.1 (by decide) (by decide) (by decide))
            (.inr rfl) ?_
          rintro _ ⟨⟩
          exact .inl ⟨params, List.mem_append_right _ (List.mem_singleton.mpr rfl), rfl⟩

theorem createLink_mediated {actor : Actor} {body : CreateLinkBody}
    (hmethod : isStateChanging r.method = true)
    (hemail : (emailDeliveryFromCreate (linkRequest body)).requested = true →
      emailActorAllowed srv actor = true)
    (haccepted : Accepted srv r "secret:create".toList actor calls) :
    MediatedFrom srv r (Recordable r) calls (createLink srv r actor body) := by
  refine meets_withOk (create_mediated hmethod haccepted).grows (fun _ _ _ => trivial)
    fun calls' link hgrown => ?_
  have haccepted' := lasting_accepted _ _ hgrown.1 haccepted
  dsimp only
  split_ifs with hrequested
  · exact MediatedFrom.of_uses ((under_sendCreatedEmail haccepted.2.1 fun _ =>
      mayEmail_of_accepted (hemail hrequested)).bind fun _ => Program.uses_pure)
      lasting_accepted haccepted'
  · trivial

theorem mediated_handleSecretLinks : Mediated srv r (Recordable r) (handleSecretLinks srv r) := by
  refine mediated_atPath ?_
  split_ifs with hget hpost
  · exact mediated_api fun _ _ => uses_withSome (under_granted trivial fun _ h => h)
      fun _ => Program.uses_pure
  · exact .of_pure _
  · have hmethod := changing_of_post (not_not.mp hpost)
    refine mediated_withActor fun actor calls haccepted => ?_
    refine MediatedFrom.withLimit fun calls hcalls _ => meets_decodeJSON (fun _ _ _ _ => trivial) fun body _ => ?_
    have haccepted := lasting_accepted _ _ hcalls haccepted
    dsimp only
    split_ifs with hrequested
    · unfold checkEmail
      split_ifs with hallowed
      · refine MediatedFrom.withLimit fun calls hcalls _ => meets_call ⟨⟨trivial, .inl trivial⟩, trivial⟩
          fun now _ => ?_
        have haccepted : Accepted srv r "secret:create".toList actor (calls ++ [⟨.now, now⟩]) :=
          lasting_accepted _ _ (List.subset_append_of_subset_left _ hcalls) haccepted
        have hpreflight : ∀ plan title expiresAt, MediatedFrom srv r (Recordable r)
            (calls ++ [⟨.now, now⟩]) (preflightEmailDelivery srv plan title expiresAt) :=
          fun _ _ _ => .of_uses (under_preflightEmailDelivery fun _ =>
            mayEmail_of_accepted hallowed) lasting_accepted haccepted
        refine meets_withOk (hpreflight _ _ _).grows (fun _ _ _ => trivial) fun calls _ hgrown => ?_
        exact createLink_mediated hmethod (fun _ => hallowed)
          (lasting_accepted _ _ hgrown.1 haccepted)
      · trivial
    · exact createLink_mediated hmethod (fun h => absurd h hrequested) haccepted

theorem under_prepare {token : Text}
    (h : ∀ calls, I calls → Passed calls .prepare ∨ Granted srv r calls "email:send") :
    (prepare srv token).Uses (Under srv r (Recordable r) I) :=
  uses_prepare fun _ => under_reading trivial h

theorem mediated_handleSecretLinkSendEmail :
    Mediated srv r (Recordable r) (handleSecretLinkSendEmail srv r) := by
  refine mediated_post fun _ actor hnamed => ?_
  split_ifs with hallowed
  · refine uses_decodeJSON fun body _ =>
      uses_withLimit (under_reading trivial fun _ _ => trivial) ?_
    refine uses_withSome (under_prepare fun _ h => .inr ⟨actor, h.1⟩) fun prepared => ?_
    split_ifs
    · refine uses_call (under_reading trivial fun _ _ => trivial) fun now => ?_
      refine uses_withOk (under_preflightEmailDelivery fun _ => mayEmail_of_accepted hallowed)
        fun _ => ?_
      exact (under_sendCreatedEmail hnamed fun _ => mayEmail_of_accepted hallowed).bind
        fun _ => Program.uses_pure
    · exact Program.uses_pure
  · exact Program.uses_pure

theorem under_revoke {actor : Actor} {id : UUID} (hmethod : isStateChanging r.method = true)
    (hnamed : Named actor) :
    (revoke id actor.actorID (srv.hasher.ipHash r.connection) r.requestID).Uses
      (Under srv r (Recordable r) (Accepted srv r "secret:revoke".toList actor)) := by
  have hrevoke : (revokeLink id).Uses
      (Under srv r (Recordable r) (Accepted srv r "secret:revoke".toList actor)) := by
    have hupdate : (perform (.revoke id)).Uses
        (Under srv r (Recordable r) (Accepted srv r "secret:revoke".toList actor)) :=
      under_accepted rfl hmethod fun _ h => h
    refine hupdate.bind fun revoked => ?_
    match revoked with
    | none => exact Program.uses_pure
    | some true => exact Program.uses_pure
    | some false => exact under_granted trivial fun _ h => h
  refine hrevoke.bind fun result => (under_recordAudit (wellFormed hnamed.1 (by decide) ?_ storable_ipHash)
    (.inl rfl) fun _ _ _ _ => .inr rfl).bind fun _ => Program.uses_pure
  have hstatus : ∀ status, storable 64 (statusText status) := by
    intro status
    cases status <;> decide
  cases result.bind (·.status) with
  | none => exact (by decide : storable 64 "unavailable".toList)
  | some status => exact hstatus status

/-- The actor may protect the link, as its metadata shows. -/
def Protects (srv : Server) (r : Request) (actor : Actor) (id : UUID) (calls : Calls) : Prop :=
  Accepted srv r "secret:manage-protection".toList actor calls ∧
    ∃ row, ⟨.metadata id, some (some row)⟩ ∈ calls ∧ canManageProtection actor row.createdBy = true

theorem Protects.mono {actor : Actor} {id : UUID} {calls' : Calls} (h : Protects srv r actor id calls)
    (hsub : calls ⊆ calls') : Protects srv r actor id calls' := by
  obtain ⟨haccepted, row, hrow, hcan⟩ := h
  exact ⟨lasting_accepted _ _ hsub haccepted, row, hsub hrow, hcan⟩

/-- An UPDATE of the protection of a link, with what follows. -/
theorem protect_mediated {actor : Actor} {id : UUID} {hash : Option Text}
    {next : Option Delivery.ProtectionUpdateResult → Prog α} (hmethod : isStateChanging r.method = true)
    (h : Protects srv r actor id calls)
    (hnext : ∀ result, MediatedFrom srv r (Recordable r)
      (calls ++ [⟨.updatePasswordProtection id hash, result⟩]) (next result)) :
    MediatedFrom srv r (Recordable r) calls
      (perform (.updatePasswordProtection id hash) >>= next) := by
  obtain ⟨haccepted, row, hrow, hcan⟩ := h
  refine meets_call ⟨⟨⟨actor, row, haccepted.1, hrow, hcan⟩,
    .inr (.inr (mayChange_of_accepted hmethod haccepted))⟩, trivial⟩ fun result _ => hnext result

/-- The record of a change of the protection of a link. -/
theorem protection_recorded {actor : Actor} {id : UUID} {hash : Option Text}
    {result : Delivery.ProtectionUpdateResult} {type : Text} {a : α} (hnamed : Named actor)
    (hupdated : result.updated = true) (htype : type ∈ auditEventTypes) :
    MediatedFrom srv r (Recordable r) (calls ++ [⟨.updatePasswordProtection id hash, some result⟩])
      (recordAudit
        { deliveryID := some id
          actorID := actor.actorID
          type := type
          result := "success".toList
          ipHash := srv.hasher.ipHash r.connection
          requestID := r.requestID } >>= fun _ => pure a) := by
  refine MediatedFrom.recordAudit (wellFormed hnamed.1 htype (by decide) storable_ipHash) (.inl rfl) ?_
  rintro _ ⟨⟩
  exact .inr (.inl ⟨hash, result, List.mem_append_right _ (List.mem_singleton.mpr rfl), hupdated⟩)

theorem setPasswordProtection_mediated {actor : Actor} {id : UUID} {password : Text}
    (hmethod : isStateChanging r.method = true) (h : Protects srv r actor id calls) :
    MediatedFrom srv r (Recordable r) calls (setPasswordProtection id password actor.actorID
      (srv.hasher.ipHash r.connection) r.requestID) := by
  unfold setPasswordProtection
  split_ifs
  · trivial
  · refine meets_call ⟨⟨⟨actor, h.1.1⟩, .inl trivial⟩, trivial⟩ fun hash _ => ?_
    cases hash with
    | none => trivial
    | some hash =>
        refine protect_mediated hmethod (h.mono (List.subset_append_left _ _)) fun result => ?_
        cases result with
        | none => trivial
        | some result =>
            dsimp only
            split_ifs with hupdated
            · exact protection_recorded h.1.2.1 hupdated (by decide)
            · exact protection_recorded h.1.2.1 hupdated (by decide)
            · trivial

theorem removePasswordProtection_mediated {actor : Actor} {id : UUID}
    (hmethod : isStateChanging r.method = true) (h : Protects srv r actor id calls) :
    MediatedFrom srv r (Recordable r) calls (removePasswordProtection id actor.actorID
      (srv.hasher.ipHash r.connection) r.requestID) := by
  refine protect_mediated hmethod h fun result => ?_
  cases result with
  | none => trivial
  | some result =>
      dsimp only
      split_ifs with hupdated
      · exact protection_recorded h.1.2.1 hupdated (by decide)
      · trivial
      · trivial

theorem changeProtection_mediated {actor : Actor} {id : UUID}
    (hmethod : isStateChanging r.method = true) (h : Protects srv r actor id calls) :
    MediatedFrom srv r (Recordable r) calls (changeProtection srv r actor id) := by
  unfold changeProtection
  dsimp only
  split_ifs
  · refine meets_decodeJSON (fun _ _ _ _ => trivial) fun password _ => ?_
    exact meets_withOk (setPasswordProtection_mediated hmethod h) (fun _ _ _ => trivial)
      fun _ _ _ => trivial
  · exact meets_withOk (removePasswordProtection_mediated hmethod h) (fun _ _ _ => trivial)
      fun _ _ _ => trivial

theorem mediated_protectByID {id : UUID} (hmethod : isStateChanging r.method = true) :
    Mediated srv r (Recordable r) (protectByID srv r id) := by
  refine mediated_withActor fun actor calls haccepted => ?_
  refine meets_call ⟨⟨.inr ⟨actor, haccepted.1⟩, .inl trivial⟩, trivial⟩ fun row _ => ?_
  match row with
  | none => trivial
  | some none => trivial
  | some (some row) =>
    dsimp only
    split_ifs with hcan
    · refine changeProtection_mediated hmethod ⟨?_, row, ?_, hcan⟩
      · exact lasting_accepted _ _ (List.subset_append_left _ _) haccepted
      · exact List.mem_append_right _ (List.mem_singleton.mpr rfl)
    · trivial

theorem mediated_withIDPath {start : String} {next : UUID → Text → Prog Response}
    (h : ∀ id action, Mediated srv r (Recordable r) (next id action)) :
    Mediated srv r (Recordable r) (withIDPath srv r start next) := by
  unfold withIDPath
  dsimp only
  split
  · exact .of_pure _
  · exact h _ _

theorem mediated_handleSecretLinkByID : Mediated srv r (Recordable r) (handleSecretLinkByID srv r) := by
  unfold handleSecretLinkByID
  split_ifs
  · exact .of_pure _
  · refine mediated_withIDPath fun id action => ?_
    split_ifs with hget hrevoke hpassword
    · refine mediated_api fun actor hnamed => uses_withSome (under_granted trivial fun _ h => .inl h)
        fun row => ?_
      cases row <;> exact Program.uses_pure
    · exact mediated_api fun actor hnamed => uses_withSome (under_revoke (changing_of_post hrevoke.2) hnamed)
        fun _ => Program.uses_pure
    · apply mediated_protectByID
      rcases hpassword.2 with hmethod | hmethod <;> rw [hmethod] <;> rfl
    · exact .of_pure _

/-! ### Recipients -/

theorem mediated_handlePrepare : Mediated srv r (Recordable r) (handlePrepare srv r) := by
  refine mediated_method fun _ calls => MediatedFrom.withLimit fun calls' _ hpassed => ?_
  refine meets_decodeJSON (fun _ _ _ _ => trivial) fun token _ => ?_
  have hlasting : Lasting fun calls => Passed calls .prepare := by
    rintro _ _ hsub ⟨key, hkey⟩
    exact ⟨key, hsub hkey⟩
  exact MediatedFrom.of_uses (uses_withSome (under_prepare fun _ => .inl) fun _ => Program.uses_pure)
    hlasting hpassed

theorem Unlocked.mono {tokenHash : Bytes} {passwordHash : Option Text} {calls' : Calls}
    (h : Unlocked srv r calls tokenHash passwordHash) (hsub : calls ⊆ calls') :
    Unlocked srv r calls' tokenHash passwordHash := by
  obtain ⟨password, found, hpresented, hfound, hmatch⟩ := h
  exact ⟨password, found, hpresented, hsub hfound, hmatch⟩

theorem Leased.mono {item : ConsumeCandidate} {leaseID : UUID} {calls' : Calls}
    (h : Leased srv r calls item leaseID) (hsub : calls ⊆ calls') :
    Leased srv r calls' item leaseID := by
  obtain ⟨tokenHash, passwordHash, hunlocked, hid, hbegun⟩ := h
  exact ⟨tokenHash, passwordHash, hunlocked.mono hsub, hsub hid, hsub hbegun⟩

theorem consumeLease_mediated {tokenHash : Bytes} {passwordHash : Option Text}
    (hpath : ¬NeedsSession r) (h : Unlocked srv r calls tokenHash passwordHash) :
    MediatedFrom srv r (Recordable r) calls (consumeLease tokenHash passwordHash) := by
  refine meets_call ⟨⟨⟨tokenHash, passwordHash, h⟩, .inl trivial⟩, trivial⟩ fun leaseID _ => ?_
  cases leaseID with
  | none => trivial
  | some leaseID =>
      have hunlocked := h.mono (List.subset_append_left calls [⟨.newLeaseID, some leaseID⟩])
      have hid : ⟨.newLeaseID, some leaseID⟩ ∈ calls ++ [⟨.newLeaseID, some leaseID⟩] :=
        List.mem_append_right _ (List.mem_singleton.mpr rfl)
      refine meets_call ⟨⟨⟨hunlocked, hid⟩, .inr (.inr (.inr hpath))⟩, trivial⟩ fun begun _ => ?_
      match begun with
      | none => trivial
      | some none => trivial
      | some (some item) =>
        have hleased : Leased srv r (calls ++ [⟨.newLeaseID, some leaseID⟩] ++
            [⟨.beginConsume tokenHash passwordHash leaseID, some (some item)⟩]) item leaseID :=
          ⟨tokenHash, passwordHash, hunlocked.mono (List.subset_append_left _ _),
            List.mem_append_left _ hid, List.mem_append_right _ (List.mem_singleton.mpr rfl)⟩
        refine meets_call ⟨⟨⟨item, leaseID, hleased, rfl⟩, .inl trivial⟩, trivial⟩
          fun plaintext _ => ?_
        have hleased := hleased.mono (List.subset_append_left _
          [⟨.vaultDecrypt item.encryptedPayload, plaintext⟩])
        cases plaintext with
        | none =>
            exact meets_call ⟨⟨⟨item, hleased, rfl⟩, .inr (.inr (.inr hpath))⟩, trivial⟩
              fun _ _ => trivial
        | some plaintext =>
            refine meets_call ⟨⟨⟨item, plaintext, hleased, rfl, ?_⟩, .inr (.inr (.inr hpath))⟩,
              trivial⟩ fun completed _ => ?_
            · exact List.mem_append_right _ (List.mem_singleton.mpr rfl)
            · match completed with
              | none => trivial
              | some false => trivial
              | some true =>
                dsimp only
                split
                · trivial
                · refine MediatedFrom.recordAudit (wellFormed (by decide) (by decide) (by decide) (by decide))
                    (.inr rfl) ?_
                  rintro _ ⟨⟩
                  obtain ⟨tokenHash, hash, _, _, hbegun⟩ := hleased
                  exact .inr (.inr (.inr ⟨tokenHash, hash, leaseID, item,
                    List.mem_append_left _ hbegun, rfl⟩))

theorem failPassword_mediated {tokenHash : Bytes} {hash : Text} (hpath : ¬NeedsSession r)
    (h : Permitted srv r calls (.recordPasswordFailure tokenHash hash)) :
    MediatedFrom srv r (Recordable r) calls (failPassword tokenHash hash) := by
  refine meets_call ⟨⟨h, .inr (.inr (.inr hpath))⟩, trivial⟩ fun failure _ => ?_
  cases failure with
  | none => trivial
  | some failure =>
      dsimp only
      have hseen : failure.updated = true → ∀ id ∈ some failure.id,
          LinkSeen (calls ++ [⟨.recordPasswordFailure tokenHash hash, some failure⟩]) id := by
        rintro hupdated _ ⟨⟩
        exact .inr (.inr (.inl ⟨tokenHash, hash, failure,
          List.mem_append_right _ (List.mem_singleton.mpr rfl), hupdated, rfl⟩))
      split_ifs with hupdated hlocked
      · exact MediatedFrom.recordAudit (wellFormed (by decide) (by decide) (by decide) (by decide)) (.inr rfl)
          (hseen hupdated)
      · exact MediatedFrom.recordAudit (wellFormed (by decide) (by decide) (by decide) (by decide)) (.inr rfl)
          (hseen hupdated)
      · trivial

theorem mediated_handleConsume (hpath : ¬NeedsSession r) :
    Mediated srv r (Recordable r) (handleConsume srv r) := by
  refine mediated_method fun _ calls => ?_
  refine meets_decodeJSON (fun _ _ _ _ => trivial) fun body hbody => ?_
  obtain ⟨token, password⟩ := body
  refine MediatedFrom.withLimit fun calls _ hpassed => ?_
  have hconsume : MediatedFrom srv r (Recordable r) calls (consume srv token password) := by
    unfold consume
    split
    · trivial
    · next tokenHash htoken =>
      have hpresented : Presented srv r tokenHash password := ⟨token, hbody, htoken⟩
      refine meets_call ⟨⟨⟨hpassed, password, hpresented⟩, .inl trivial⟩, trivial⟩
        fun found _ => ?_
      match found with
      | none => trivial
      | some none => trivial
      | some (some item) =>
        have hfound : ⟨.findConsumeCandidate tokenHash, some (some item)⟩ ∈ calls ++
            [⟨.findConsumeCandidate tokenHash, some (some item)⟩] :=
          List.mem_append_right _ (List.mem_singleton.mpr rfl)
        dsimp only
        split
        · next hnone =>
          refine consumeLease_mediated hpath ⟨password, item, hpresented, hfound, hnone, ?_⟩
          rintro _ ⟨⟩
        · next hash hhash =>
          split_ifs with hverified
          · refine consumeLease_mediated hpath ⟨password, item, hpresented, hfound, hhash, ?_⟩
            rintro _ ⟨⟩
            exact hverified
          · exact failPassword_mediated hpath
              ⟨password, item, hpresented, hfound, hhash, Bool.eq_false_iff.mpr hverified⟩
  exact meets_withOk hconsume (fun _ _ _ => trivial) fun _ _ _ => trivial

/-! ### All routes -/

theorem Mediated.recordable {p : Prog α} (h : Mediated srv r Showing p) :
    Mediated srv r (Recordable r) p := by
  intro calls
  exact (h calls).weaken fun _ _ hop => ⟨hop.1, recordable_of_shows hop.2⟩

theorem serve_mediated : Mediated srv r (Recordable r) (serve srv r) := by
  apply serve_of_routes
  · exact .of_pure _
  have hlogin : Route.matches ⟨"/api/v1/auth/login".toList, handleLogin srv r⟩ r.path = true →
      Mediated srv r (Recordable r) (handleLogin srv r) := by
    intro hmatches
    exact mediated_handleLogin fun h => h.1 (of_decide_eq_true hmatches).symm
  have hconsume : Route.matches ⟨"/api/v1/secret-links/consume".toList, handleConsume srv r⟩
      r.path = true → Mediated srv r (Recordable r) (handleConsume srv r) := by
    intro hmatches
    exact mediated_handleConsume fun h => h.2 (of_decide_eq_true hmatches).symm
  have hmetrics : ∀ route ∈ if srv.settings.metricsEnabled then
      [⟨"/metrics".toList, pure .file⟩] else ([] : List Route),
      Mediated srv r (Recordable r) route.handler := by
    split_ifs <;> simp [Mediated.of_pure]
  rw [routes, List.forall_mem_append]
  refine ⟨?_, fun route hroute _ => hmetrics route hroute⟩
  simp only [List.forall_mem_cons]
  refine ⟨fun _ => .of_pure _, fun _ => .of_pure _, fun _ => mediated_handleRoot.recordable,
    fun _ => mediated_handleDocsPage.recordable, fun _ => mediated_handleOpenAPISpec.recordable,
    fun _ => mediated_handleLoginPage.recordable, fun _ => mediated_handleBrowserLogout,
    fun _ => mediated_handleAdmin.recordable,
    fun _ => mediated_handleSecretListPage.recordable,
    fun _ => mediated_formPage.recordable, fun _ => mediated_handleSecretPage.recordable,
    fun _ => mediated_handleStatusPage.recordable, fun _ => mediated_handleStatusPage.recordable,
    fun _ => mediated_formPage.recordable, fun _ => mediated_handleUsersPage.recordable,
    fun _ => mediated_formPage.recordable, fun _ => mediated_handleUserDetailPage.recordable,
    fun _ => mediated_handleAccountPage.recordable, fun _ => mediated_handleEmailSettingsPage.recordable,
    fun _ => mediated_handlePublicExperiencePage.recordable,
    fun _ => mediated_handlePublicExperiencePreview.recordable,
    fun _ => mediated_handleAPIClientsPage.recordable,
    fun _ => mediated_formPage.recordable, fun _ => mediated_handleAPIClientDetailPage.recordable,
    fun _ => mediated_handleRecipientPage.recordable, fun _ => mediated_handleErrorPage.recordable,
    hlogin, fun _ => mediated_handleLogout, fun _ => mediated_handleMe,
    fun _ => mediated_handleThemePreference, fun _ => mediated_handleChangePassword,
    fun _ => mediated_handleMySessions, fun _ => mediated_handleRevokeOtherSessions,
    fun _ => mediated_handleDashboardAPI, fun _ => mediated_handleManualCleanup,
    fun _ => mediated_handleEmailSettingsAPI, fun _ => mediated_handleEmailSettingsActionAPI,
    fun _ => mediated_handlePublicExperienceAPI, fun _ => mediated_handleUsersAPI,
    fun _ => mediated_handleUserAPI, fun _ => mediated_handleAPIClientsAPI,
    fun _ => mediated_handleAPIClientAPI, fun _ => mediated_handleSecretLinks,
    fun _ => mediated_handleSecretLinkSendEmail, fun _ => mediated_handleSecretLinkByID,
    fun _ => mediated_handlePrepare, hconsume, fun _ => .of_pure _, fun _ => mediated_handleReady,
    fun _ => mediated_handleVersion, fun _ h => absurd h List.not_mem_nil⟩

/-- The names of users and clients are checked by the schema. -/
theorem possible_of_act (x : Inputs) (s : Store) (op : Op) (t : Store) (a : op.Answer)
    (h : act srv x s op = (t, some a)) : Possible op a := by
  have hanswer := congrArg Prod.snd h
  have huser : ∀ user ∈ s.auth.users.rows, storable 255 user.username := by
    intro user huser
    obtain ⟨⟨hlength, hnul⟩, _⟩ := s.auth.users.checks user huser
    exact ⟨hlength.trans (by decide), hnul⟩
  cases op with
  | sessionByHash id =>
      obtain ⟨auth, hlookup⟩ := answer_of_onAuth hanswer
      obtain ⟨⟨_, accepted⟩, hstatement, heq⟩ := Option.map_eq_some_iff.mp hlookup
      obtain ⟨_, _, _, _, user, hfind, rfl⟩ := Auth.Repository.sessionByHash_eq_some hstatement
      have hname := huser user (Table.mem_of_find hfind)
      cases heq
      exact ⟨hname, hname⟩
  | apiClientByClientID clientID =>
      have hfind : s.clients.find (·.clientID) clientID = some a := answer_of_reads hanswer
      obtain ⟨_, ⟨hlength, hnul⟩, _⟩ := s.clients.checks a (Table.mem_of_find hfind)
      have hprefix : storable 11 "api-client:".toList := by decide
      have hempty : storable 255 ([] : Text) := by decide
      refine ⟨⟨?_, ?_⟩, hempty⟩
      · exact (List.length_append.trans_le (Nat.add_le_add hprefix.1 hlength)).trans (by decide)
      · exact fun h => (List.mem_append.mp h).elim hprefix.2 hnul
  | userForLogin login =>
      intro user huser'
      have hread := answer_of_reads hanswer
      rw [Option.some.injEq] at hread
      have hmem : user ∈ Auth.Repository.usersForLogin s.auth.users srv.fns login :=
        List.mem_of_getElem? (hread.trans huser')
      exact huser user (List.mem_of_mem_filter hmem)
  | _ => trivial

/-- Each call of a run has been allowed by those before, and its record fits. -/
theorem serve_keeps {rely : Store → Store → Prop} {s : Store}
    {pre post : List (Event Store Op Op.Answer)} {e : Event Store Op Op.Answer}
    (hrun : Program.Run (act srv) rely s (serve srv r) (pre ++ e :: post)) :
    Allowed srv r (pre.map Event.call) e.op ∧ Recordable r (pre.map Event.call) e.op := by
  have hallowed := (serve_mediated []).allowed possible_of_act hrun
  rw [policyContract, Contract.learnt_ofCalls, List.nil_append] at hallowed
  exact hallowed

end

end SecureShare.Handlers
