import SecureShare.Auth.UserUpdates
import SecureShare.Delivery.Repository
import SecureShare.Http.Request

/-!
# Who may manage the password of a link

A link records a name: the username of the session that creates it, or the name of the
API client or of the legacy key. Whether a session may manage its password is decided
by that name, while usernames change hands. The store also keeps who really created
each link, which no request reads; as long as no name passes between creators of links,
the decision follows it.
-/
namespace SecureShare.Http
open Go Library Library.Transition
open Library.Interleaving (System State Action Reply)
open Auth (Actor AuthStore ClientTable SessionTable UserTable UserCreate UpdateCall UpdateRequest
  UpdateInputs Session)
open Delivery (UUID CreateRequest CreateInputs)

inductive Creator where
  | user (userID : UUID)
  | apiClient (clientID : Text)
  | legacyKey
  deriving DecidableEq, Repr

/-- Whom an actor stands for. -/
def creatorOf (actor : Actor) : Creator :=
  if actor.apiClient then .apiClient actor.clientID
  else if actor.bearer then .legacyKey
  else .user actor.userID

structure OwnerStore where
  auth : AuthStore
  clients : ClientTable
  links : Delivery.Table
  creator : UUID → Option Creator

structure OwnerInputs where
  reply : Reply
  databaseNow : ℤ
  now : ℤ
  salt : Option ℕ
  userID : Option UUID
  create : CreateInputs
  deriving DecidableEq, Repr

inductive CreateLinkPhase where
  | authorizing
  | inserting (actor : Actor)
  | done
  deriving DecidableEq, Repr

/-- `createdBy` is the metadata that the decision has read. -/
inductive ManagePhase where
  | authorizing
  | reading (actor : Actor)
  | allowed (actor : Actor) (createdBy : Text)
  | refused
  deriving DecidableEq, Repr

/-- A request in progress. Other requests change the links by one of the statements, and
the tables of sessions and API clients in any way. -/
inductive OwnerCall where
  | createUser (params : UserCreate) (done : Bool)
  | updateUser (call : UpdateCall)
  | createLink (req : Request) (body : CreateRequest) (phase : CreateLinkPhase)
  | managePassword (req : Request) (id : UUID) (phase : ManagePhase)
  | statement (s : Delivery.Statement) (done : Bool)
  | otherTables (sessions : SessionTable) (clients : ClientTable) (done : Bool)

inductive OwnerRequest where
  | createUser (params : UserCreate)
  | updateUser (request : UpdateRequest)
  | createLink (req : Request) (body : CreateRequest)
  | managePassword (req : Request) (id : UUID)
  | statement (s : Delivery.Statement)
  | otherTables (sessions : SessionTable) (clients : ClientTable)

def OwnerRequest.call : OwnerRequest → OwnerCall
  | .createUser params => .createUser params false
  | .updateUser request => .updateUser request.call
  | .createLink req body => .createLink req body .authorizing
  | .managePassword req id => .managePassword req id .authorizing
  | .statement s => .statement s false
  | .otherTables sessions clients => .otherTables sessions clients false

namespace Server
variable (srv : Server) (inputs : OwnerInputs) (s : OwnerStore)

/-- `apiClientActor`; that it notes the use is left to `otherTables`. -/
def clientActor (req : Request) (permission : Text) : Option Actor :=
  match Auth.apiClientActor srv.hmac srv.cfg
      ⟨inputs.reply, inputs.databaseNow, inputs.now, none, none, none⟩ s.clients
      ⟨req.basicAuth, req.requestHTTPS, permission⟩ with
  | .touching _ actor | .accepted actor => some actor
  | .finding | .refused => none

/-- `FromRequest` -/
def fromRequest (req : Request) : OwnerStore × Option Session :=
  inputs.reply.apply s ((srv.manager.fromRequest inputs.now s.auth req.cookie).map fun r =>
    ({ s with auth := r.1 }, r.2))

/-- `requireAPI`; of the tables here it reads the users only once. -/
def requireAPI (req : Request) (permission : Text) : OwnerStore × Option Actor :=
  match srv.clientActor inputs s req permission with
  | some actor => (s, some actor)
  | none =>
    if srv.acceptsBearer req then (s, some legacyActor)
    else
      let r := srv.fromRequest inputs s req
      (r.1, r.2.bind fun session =>
        if permission ∈ session.permissions ∧
            (isStateChanging req.method → srv.validCSRF req session) then
          some (sessionActor session)
        else none)

/-- One step of `handleSecretLinks` for a POST. -/
def createLink (req : Request) (body : CreateRequest) :
    CreateLinkPhase → Option (OwnerStore × CreateLinkPhase)
  | .authorizing =>
    let r := srv.requireAPI inputs s req "secret:create".toList
    some (r.1, r.2.elim .done .inserting)
  | .inserting actor =>
    match Delivery.insertParams srv.deps srv.cfg inputs.create actor.actorID body with
    | .error _ => some (s, .done)
    | .ok (params, _) =>
      some ((inputs.reply.apply s ((s.links.insert (params.row inputs.databaseNow)).map fun links =>
        ({ s with links, creator := Function.update s.creator params.id (creatorOf actor) },
          ()))).1, .done)
  | .done => none

/-- One step of `handleSecretLinkByID` for a PUT or DELETE of the password, up to the
decision. -/
def managePassword (req : Request) (id : UUID) : ManagePhase → Option (OwnerStore × ManagePhase)
  | .authorizing =>
    let r := srv.requireAPI inputs s req "secret:manage-protection".toList
    some (r.1, r.2.elim .refused .reading)
  | .reading actor =>
    some (s, match (inputs.reply.apply s ((s.links.find id).map fun r => (s, r.createdBy))).2 with
      | none => .refused
      | some createdBy =>
        if canManageProtection actor createdBy then .allowed actor createdBy else .refused)
  | .allowed _ _ | .refused => none

/-- One step of a request. -/
def ownerAdvance : OwnerCall → Option (OwnerStore × OwnerCall)
  | .createUser params false =>
    some ((inputs.reply.apply s ((Auth.Repository.createUser inputs.databaseNow s.auth.users srv.fns
      srv.deps inputs.salt inputs.userID params).map fun r =>
        ({ s with auth := { s.auth with users := r.1 } }, r.2))).1, .createUser params true)
  | .updateUser call =>
    (call.advance srv.fns ⟨inputs.reply, inputs.databaseNow⟩ s.auth.users).map fun r =>
      ({ s with auth := { s.auth with users := r.1 } }, .updateUser r.2)
  | .createLink req body phase =>
    (srv.createLink inputs s req body phase).map fun r => (r.1, .createLink req body r.2)
  | .managePassword req id phase =>
    (srv.managePassword inputs s req id phase).map fun r => (r.1, .managePassword req id r.2)
  | .statement st false =>
    some ({ s with links := s.links.exec inputs.databaseNow st }, .statement st true)
  | .otherTables sessions clients false =>
    some ({ s with auth := { s.auth with sessions }, clients }, .otherTables sessions clients true)
  | .createUser _ true | .statement _ true | .otherTables _ _ true => none

/-- Any number of requests. -/
def ownerSystem : System OwnerStore OwnerCall OwnerRequest OwnerInputs where
  start := OwnerRequest.call
  advance inputs s call := srv.ownerAdvance inputs s call

end Server

/-- Every link under this name was created in a session of this user. -/
def Owns (s : OwnerStore) (name : Text) (userID : UUID) : Prop :=
  ∀ r ∈ s.links.rows, r.createdBy = name → s.creator r.id = some (.user userID)

instance (s : OwnerStore) (name : Text) (userID : UUID) : Decidable (Owns s name userID) :=
  inferInstanceAs (Decidable (∀ r ∈ s.links.rows, _))

/-- A session that may manage links only by their name. -/
def ordinary (actor : Actor) : Bool :=
  !actor.apiClient && !actor.bearer && actor.role ≠ some .admin

namespace OwnerCall

/-- The user whose row the next step of the call writes, and the username that it gets. -/
def names (fns : Auth.CaseFunctions) (inputs : OwnerInputs) : OwnerCall → Option (UUID × Text)
  | .createUser params false =>
    inputs.userID.map fun id => (id, (Auth.normalizeUserCreate fns params).username)
  | .updateUser ⟨id, _, .updating _ columns⟩ => some (id, columns.username)
  | _ => none

/-- The actor for whom the next step of the call creates a link. -/
def creates : OwnerCall → Option Actor
  | .createLink _ _ (.inserting actor) => some actor
  | _ => none

/-- The session by which the call is about to decide. -/
def decidesBy : OwnerCall → Option Actor
  | .managePassword _ _ (.reading actor) => if ordinary actor then some actor else none
  | _ => none

end OwnerCall

/-- No step gives a user a name under which somebody else has created a link, and none
creates a link under a name that another user holds, in the table or in a session by
which a request is about to decide. -/
def NamesApart (fns : Auth.CaseFunctions) (s : State OwnerStore OwnerCall) :
    Action OwnerRequest OwnerInputs → Prop
  | .spawn _ => True
  | .advance j inputs => inputs.reply ≠ .failed →
    (∀ named ∈ s.calls[j]?.bind (OwnerCall.names fns inputs), Owns s.store named.2 named.1) ∧
    ∀ actor ∈ s.calls[j]?.bind OwnerCall.creates,
      (∀ user ∈ s.store.auth.users.rows, user.username = actor.actorID →
        creatorOf actor = .user user.id) ∧
      ∀ call ∈ s.calls, ∀ session ∈ call.decidesBy, session.username = actor.actorID →
        creatorOf actor = .user session.userID

instance (fns : Auth.CaseFunctions) (s : State OwnerStore OwnerCall)
    (a : Action OwnerRequest OwnerInputs) : Decidable (NamesApart fns s a) :=
  match a with
  | .spawn _ => inferInstanceAs (Decidable True)
  | .advance _ _ => inferInstanceAs (Decidable (_ → _ ∧ _))

variable {srv : Server} {inputs : OwnerInputs} {s s' : OwnerStore} {call call' : OwnerCall}

/-- Each user keeps the username, but for the one that the call names. -/
def NamesFrom (named : Option (UUID × Text)) (t t' : UserTable) : Prop :=
  ∀ u' ∈ t'.rows, (∃ u ∈ t.rows, u'.id = u.id ∧ u'.username = u.username) ∨
    named = some (u'.id, u'.username)

theorem NamesFrom.refl (named : Option (UUID × Text)) (t : UserTable) : NamesFrom named t t :=
  fun u hu => .inl ⟨u, hu, rfl, rfl⟩

/-- What a step does to the users and the links. -/
inductive OwnerEffect (fns : Auth.CaseFunctions) (inputs : OwnerInputs) (call : OwnerCall)
    (s s' : OwnerStore) : Prop
  | kept : (∀ r' ∈ s'.links.rows, ∃ r ∈ s.links.rows, r'.id = r.id ∧ r'.createdBy = r.createdBy) →
      (∀ r ∈ s.links.rows, ∃ r' ∈ s'.links.rows, r'.id = r.id) → s'.creator = s.creator →
      NamesFrom none s.auth.users s'.auth.users → OwnerEffect fns inputs call s s'
  | named (userID : UUID) (name : Text) : inputs.reply ≠ .failed →
      call.names fns inputs = some (userID, name) → s'.links = s.links → s'.creator = s.creator →
      NamesFrom (some (userID, name)) s.auth.users s'.auth.users → OwnerEffect fns inputs call s s'
  | created (actor : Actor) (r : Delivery.Row) : inputs.reply ≠ .failed →
      call.creates = some actor → s.links.insert r = some s'.links → r.createdBy = actor.actorID →
      s'.creator = Function.update s.creator r.id (some (creatorOf actor)) →
      s'.auth.users = s.auth.users → OwnerEffect fns inputs call s s'

theorem OwnerEffect.of_eq (hlinks : s'.links = s.links) (hcreator : s'.creator = s.creator)
    (husers : s'.auth.users = s.auth.users) : OwnerEffect srv.fns inputs call s s' := by
  refine .kept ?_ ?_ hcreator (husers ▸ .refl _ _)
  · rw [hlinks]
    exact fun r hr => ⟨r, hr, rfl, rfl⟩
  · rw [hlinks]
    exact fun r hr => ⟨r, hr, rfl⟩

theorem fromRequest_effect {req : Request} :
    OwnerEffect srv.fns inputs call s (srv.fromRequest inputs s req).1 := by
  unfold Server.fromRequest
  rcases Reply.apply_store inputs.reply s ((srv.manager.fromRequest inputs.now s.auth
    req.cookie).map fun r => ({ s with auth := r.1 }, r.2)) with hsame | ⟨session, hresult⟩
  · rw [hsame]
    exact .of_eq rfl rfl rfl
  · obtain ⟨⟨t, _⟩, ht, heq⟩ := Option.map_eq_some_iff.mp hresult
    rw [← (Prod.mk.inj heq).1]
    obtain ⟨_, _, _, hstatement, _⟩ := Auth.SessionManager.fromRequest_eq_some ht
    obtain ⟨_, _, h⟩ := Option.bind_eq_some_iff.mp hstatement
    obtain ⟨_, _, h⟩ := Option.bind_eq_some_iff.mp h
    obtain ⟨_, _, heq⟩ := Option.map_eq_some_iff.mp h
    cases heq
    exact .of_eq rfl rfl rfl

theorem requireAPI_effect {req : Request} {permission : Text} :
    OwnerEffect srv.fns inputs call s (srv.requireAPI inputs s req permission).1 := by
  unfold Server.requireAPI
  split
  · exact .of_eq rfl rfl rfl
  · split_ifs
    · exact .of_eq rfl rfl rfl
    · exact fromRequest_effect

theorem createUser_effect {params : UserCreate} :
    OwnerEffect srv.fns inputs (.createUser params false) s
      (inputs.reply.apply s ((Auth.Repository.createUser inputs.databaseNow s.auth.users srv.fns
        srv.deps inputs.salt inputs.userID params).map fun r =>
          (({ s with auth := { s.auth with users := r.1 } } : OwnerStore), r.2))).1 := by
  rcases Reply.apply_changes inputs.reply s ((Auth.Repository.createUser inputs.databaseNow
    s.auth.users srv.fns srv.deps inputs.salt inputs.userID params).map fun r =>
      (({ s with auth := { s.auth with users := r.1 } } : OwnerStore), r.2)) with
    hsame | ⟨hreply, user, hresult⟩
  · rw [hsame]
    exact .of_eq rfl rfl rfl
  · obtain ⟨⟨t, _⟩, ht, heq⟩ := Option.map_eq_some_iff.mp hresult
    rw [← (Prod.mk.inj heq).1]
    unfold Auth.Repository.createUser at ht
    dsimp only at ht
    split at ht
    · next role status hash id _ _ hid =>
      obtain ⟨t', hinsert, heq⟩ := Option.map_eq_some_iff.mp ht
      cases heq
      refine .named id (Auth.normalizeUserCreate srv.fns params).username hreply ?_ rfl rfl ?_
      · rw [OwnerCall.names, hid, Option.map_some]
      · intro u hu
        rw [Table.rows_of_ofRows hinsert] at hu
        rcases List.mem_cons.mp hu with rfl | hu
        · exact .inr rfl
        · exact .inl ⟨u, hu, rfl, rfl⟩
    · cases ht

theorem updateUser_effect {call call' : UpdateCall} {t : UserTable}
    (h : call.advance srv.fns ⟨inputs.reply, inputs.databaseNow⟩ s.auth.users =
      some (t, call')) :
    OwnerEffect srv.fns inputs (.updateUser call) s { s with auth := { s.auth with users := t } } := by
  obtain ⟨id, patch, phase⟩ := call
  cases phase with
  | selecting =>
      cases h
      exact .of_eq rfl rfl rfl
  | updating current columns =>
      obtain ⟨rfl, _⟩ := Prod.mk.inj (Option.some.inj h)
      rcases Reply.apply_changes inputs.reply s.auth.users (Auth.Repository.updateColumns
        inputs.databaseNow s.auth.users id columns) with hsame | ⟨hreply, user, hresult⟩
      · exact .of_eq rfl rfl hsame
      · refine .named id columns.username hreply rfl rfl rfl ?_
        obtain ⟨t', ht', hresult⟩ := Option.bind_eq_some_iff.mp hresult
        obtain ⟨_, _, heq⟩ := Option.map_eq_some_iff.mp hresult
        rw [← (Prod.mk.inj heq).1]
        intro u hu
        rw [Table.rows_of_ofRows ht'] at hu
        obtain ⟨r, hr, rfl⟩ := List.mem_map.mp hu
        split_ifs with hid
        · exact .inr (by rw [← of_decide_eq_true hid]; rfl)
        · exact .inl ⟨r, hr, rfl, rfl⟩
  | answered | refused => cases h

theorem createLink_effect {req : Request} {body : CreateRequest} {phase phase' : CreateLinkPhase}
    (h : srv.createLink inputs s req body phase = some (s', phase')) :
    OwnerEffect srv.fns inputs (.createLink req body phase) s s' := by
  cases phase with
  | authorizing =>
      cases h
      exact requireAPI_effect
  | inserting actor =>
      unfold Server.createLink at h
      dsimp only at h
      split at h
      · cases h
        exact .of_eq rfl rfl rfl
      · next params token hparams =>
        cases h
        rcases Reply.apply_changes inputs.reply s ((s.links.insert
          (params.row inputs.databaseNow)).map fun links => (({ s with
            links, creator := Function.update s.creator params.id (creatorOf actor) } :
              OwnerStore), ())) with hsame | ⟨hreply, _, hresult⟩
        · rw [hsame]
          exact .of_eq rfl rfl rfl
        · obtain ⟨t, ht, heq⟩ := Option.map_eq_some_iff.mp hresult
          rw [← (Prod.mk.inj heq).1]
          exact .created actor _ hreply rfl ht (Delivery.insertParams_createdBy hparams) rfl rfl
  | done => cases h

theorem Server.ownerAdvance_effect (h : srv.ownerAdvance inputs s call = some (s', call')) :
    OwnerEffect srv.fns inputs call s s' := by
  cases call with
  | createUser params done =>
      cases done with
      | false =>
          cases h
          exact createUser_effect
      | true => cases h
  | updateUser call =>
      obtain ⟨⟨t, _⟩, hadvance, heq⟩ := Option.map_eq_some_iff.mp h
      cases heq
      exact updateUser_effect hadvance
  | createLink req body phase =>
      obtain ⟨_, hadvance, heq⟩ := Option.map_eq_some_iff.mp h
      cases heq
      exact createLink_effect hadvance
  | managePassword req id phase =>
      obtain ⟨_, hadvance, heq⟩ := Option.map_eq_some_iff.mp h
      cases heq
      cases phase with
      | authorizing =>
          cases hadvance
          exact requireAPI_effect
      | reading actor =>
          cases hadvance
          exact .of_eq rfl rfl rfl
      | allowed | refused => cases hadvance
  | statement st done =>
      cases done with
      | false =>
          cases h
          refine .kept ?_ ?_ rfl (.refl _ _)
          · intro r' hr'
            obtain ⟨r, hr, rfl⟩ := List.mem_map.mp hr'
            have hsame := Delivery.Statement.exec_unassigned inputs.databaseNow st r
            exact ⟨r, hr, hsame.id, hsame.createdBy⟩
          · intro r hr
            exact ⟨_, List.mem_map_of_mem hr, Delivery.Statement.exec_id _ _ _⟩
      | true => cases h
  | otherTables sessions clients done =>
      cases done with
      | false =>
          cases h
          exact .of_eq rfl rfl rfl
      | true => cases h

/-! ### The links keep their owners -/

namespace Owns
variable {name : Text} {userID : UUID}

theorem kept (h : Owns s name userID)
    (hrows : ∀ r' ∈ s'.links.rows, ∃ r ∈ s.links.rows, r'.id = r.id ∧ r'.createdBy = r.createdBy)
    (hcreator : s'.creator = s.creator) : Owns s' name userID := by
  intro r' hr' hname
  obtain ⟨r, hr, hid, hcreatedBy⟩ := hrows r' hr'
  rw [hcreator, hid]
  exact h r hr (hcreatedBy ▸ hname)

/-- A new link leaves the names alone that are not its own. -/
theorem created {r : Delivery.Row} {c : Creator} (h : Owns s name userID)
    (hinsert : s.links.insert r = some s'.links)
    (hcreator : s'.creator = Function.update s.creator r.id (some c))
    (hname : r.createdBy = name → c = .user userID) : Owns s' name userID := by
  intro u hu hcreatedBy
  rw [hcreator]
  rcases Delivery.Table.mem_insert hinsert hu with rfl | ⟨hu, hne⟩
  · rw [Function.update_self, hname hcreatedBy]
  · rw [Function.update_of_ne hne]
    exact h u hu hcreatedBy

end Owns

/-- The links under the name of each user are links of that user. -/
def OwnerStore.Owned (s : OwnerStore) : Prop :=
  ∀ user ∈ s.auth.users.rows, Owns s user.username user.id

/-- What a pending call relies on. -/
def OwnerCall.Knows (s : OwnerStore) : OwnerCall → Prop
  | .managePassword _ _ (.reading actor) =>
    ordinary actor = true → Owns s actor.username actor.userID
  | .managePassword _ id (.allowed actor _) =>
    ordinary actor = true →
      s.creator id = some (.user actor.userID) ∧ ∃ r ∈ s.links.rows, r.id = id
  | _ => True

/-- A step leaves the owner of a name alone unless it creates a link under the name. -/
theorem Owns.effect {name : Text} {userID : UUID} (h : Owns s name userID)
    (heffect : OwnerEffect srv.fns inputs call s s')
    (hcreates : inputs.reply ≠ .failed → ∀ actor ∈ call.creates, name = actor.actorID →
      creatorOf actor = .user userID) : Owns s' name userID := by
  cases heffect with
  | kept hrows _ hcreator _ => exact h.kept hrows hcreator
  | named _ _ _ _ hlinks hcreator _ =>
      apply h.kept _ hcreator
      rw [hlinks]
      exact fun r hr => ⟨r, hr, rfl, rfl⟩
  | created actor r hreply hactor hinsert hcreatedBy hcreator _ =>
      apply h.created hinsert hcreator
      intro hname
      exact hcreates hreply actor hactor (hname.symm.trans hcreatedBy)

theorem OwnerStore.Owned.effect (h : s.Owned) (heffect : OwnerEffect srv.fns inputs call s s')
    (hnames : inputs.reply ≠ .failed → ∀ named ∈ call.names srv.fns inputs,
      Owns s named.2 named.1)
    (hcreates : inputs.reply ≠ .failed → ∀ actor ∈ call.creates, ∀ user ∈ s.auth.users.rows,
      user.username = actor.actorID → creatorOf actor = .user user.id) : s'.Owned := by
  have hkeep : ∀ user ∈ s.auth.users.rows, Owns s' user.username user.id := by
    intro user huser
    apply (h user huser).effect heffect
    intro hreply actor hactor hname
    exact hcreates hreply actor hactor user huser hname
  intro user' huser'
  cases heffect with
  | kept _ _ _ hnamed =>
      rcases hnamed user' huser' with ⟨user, huser, hid, hname⟩ | hnone
      · rw [hid, hname]
        exact hkeep user huser
      · cases hnone
  | named userID name hreply hcall hlinks hcreator hnamed =>
      rcases hnamed user' huser' with ⟨user, huser, hid, hname⟩ | hsome
      · rw [hid, hname]
        exact hkeep user huser
      · obtain ⟨rfl, rfl⟩ := Prod.mk.inj (Option.some.inj hsome)
        apply (hnames hreply _ hcall).kept _ hcreator
        rw [hlinks]
        exact fun r hr => ⟨r, hr, rfl, rfl⟩
  | created _ _ _ _ _ _ _ husers => exact hkeep user' (husers ▸ huser')

/-- A step keeps a link and its creator. -/
theorem OwnerEffect.keeps_link {id : UUID} {c : Option Creator}
    (heffect : OwnerEffect srv.fns inputs call s s') (hc : s.creator id = c)
    (hid : ∃ r ∈ s.links.rows, r.id = id) :
    s'.creator id = c ∧ ∃ r ∈ s'.links.rows, r.id = id := by
  obtain ⟨r, hr, rfl⟩ := hid
  cases heffect with
  | kept _ hrows hcreator _ => exact ⟨by rw [hcreator, hc], hrows r hr⟩
  | named _ _ _ _ hlinks hcreator _ => exact ⟨by rw [hcreator, hc], r, hlinks ▸ hr, rfl⟩
  | created _ new _ _ hinsert _ hcreator _ =>
      have hfind := Delivery.Table.find_eq_some.mpr ⟨hr, rfl⟩
      have hne : r.id ≠ new.id := by
        intro heq
        rw [heq, Delivery.Table.insert_new hinsert] at hfind
        cases hfind
      have hfind' := Delivery.Table.find_insert hinsert r.id
      rw [if_neg hne, hfind] at hfind'
      obtain ⟨hr', _⟩ := Delivery.Table.find_eq_some.mp hfind'
      exact ⟨by rw [hcreator, Function.update_of_ne hne, hc], r, hr', rfl⟩

theorem OwnerCall.Knows.effect {other : OwnerCall} (h : other.Knows s)
    (heffect : OwnerEffect srv.fns inputs call s s')
    (hcreates : inputs.reply ≠ .failed → ∀ actor ∈ call.creates, ∀ session ∈ other.decidesBy,
      session.username = actor.actorID → creatorOf actor = .user session.userID) :
    other.Knows s' := by
  cases other with
  | managePassword req id phase =>
      cases phase with
      | reading session =>
          intro hordinary
          apply (h hordinary).effect heffect
          intro hreply actor hactor hname
          apply hcreates hreply actor hactor session _ hname
          rw [OwnerCall.decidesBy, if_pos hordinary]
          rfl
      | allowed session createdBy =>
          intro hordinary
          obtain ⟨hcreator, hid⟩ := h hordinary
          exact heffect.keeps_link hcreator hid
      | authorizing | refused => trivial
  | createUser | updateUser | createLink | statement | otherTables => trivial

/-! ### What a session may manage -/

theorem clientActor_apiClient {req : Request} {permission : Text} {actor : Actor}
    (h : srv.clientActor inputs s req permission = some actor) : actor.apiClient = true := by
  unfold Server.clientActor at h
  rcases Auth.apiClientActor_cases srv.hmac srv.cfg _ s.clients _ with
    hphase | ⟨id, client, hclient, hphase⟩
  · rw [hphase] at h
    cases h
  · rw [hphase] at h
    cases h
    exact hclient

/-- The names of a session are those of its user. -/
theorem fromRequest_user {req : Request} {session : Session}
    (h : (srv.fromRequest inputs s req).2 = some session) :
    ∃ user ∈ s.auth.users.rows, user.username = session.username ∧ user.id = session.userID := by
  obtain ⟨⟨_, session⟩, hrequest, heq⟩ := Option.map_eq_some_iff.mp (Reply.apply_answer h)
  obtain rfl := (Prod.mk.inj heq).2
  obtain ⟨_, _, _, hstatement, rfl⟩ := Auth.SessionManager.fromRequest_eq_some hrequest
  obtain ⟨_, _, _, _, user, hfind, rfl⟩ := Auth.Repository.sessionByHash_eq_some hstatement
  exact ⟨user, List.mem_of_find?_eq_some hfind, rfl, rfl⟩

theorem requireAPI_ordinary {req : Request} {permission : Text} {actor : Actor}
    (h : (srv.requireAPI inputs s req permission).2 = some actor) (hordinary : ordinary actor = true) :
    ∃ user ∈ s.auth.users.rows, user.username = actor.username ∧ user.id = actor.userID := by
  unfold Server.requireAPI at h
  split at h
  · next client hclient =>
    cases h
    rw [ordinary, clientActor_apiClient hclient] at hordinary
    cases hordinary
  · split_ifs at h with hbearer
    · cases h
      cases hordinary
    · obtain ⟨session, hsession, h⟩ := Option.bind_eq_some_iff.mp h
      split_ifs at h
      cases h
      exact fromRequest_user hsession

theorem createdBy_of_canManage {actor : Actor} {createdBy : Text}
    (h : canManageProtection actor createdBy = true) (hordinary : ordinary actor = true) :
    createdBy = actor.username := by
  unfold canManageProtection at h
  unfold ordinary at hordinary
  simp only [Bool.and_eq_true, Bool.not_eq_true', decide_eq_true_eq] at hordinary
  obtain ⟨⟨hclient, hbearer⟩, hrole⟩ := hordinary
  rw [hclient, hbearer, decide_eq_false hrole] at h
  simp only [Bool.false_or, Bool.and_eq_true, decide_eq_true_eq] at h
  exact h.2

theorem OwnerCall.Knows.advance (howned : s.Owned) (hknows : call.Knows s)
    (h : srv.ownerAdvance inputs s call = some (s', call')) : call'.Knows s' := by
  have heffect := srv.ownerAdvance_effect h
  cases call with
  | managePassword req id phase =>
      obtain ⟨⟨t, phase'⟩, hphase, heq⟩ := Option.map_eq_some_iff.mp h
      cases heq
      cases phase with
      | authorizing =>
          obtain ⟨rfl, rfl⟩ := Prod.mk.inj (Option.some.inj hphase)
          cases hactor : (srv.requireAPI inputs s req "secret:manage-protection".toList).2 with
          | none => trivial
          | some actor =>
              intro hordinary
              obtain ⟨user, huser, hname, hid⟩ := requireAPI_ordinary hactor hordinary
              rw [← hname, ← hid]
              apply (howned user huser).effect heffect
              intro _ _ hcreates
              cases hcreates
      | reading actor =>
          obtain ⟨rfl, rfl⟩ := Prod.mk.inj (Option.some.inj hphase)
          dsimp only
          split
          · trivial
          · next createdBy hread =>
            split_ifs with hmanage
            · intro hordinary
              obtain ⟨r, hfind, heq⟩ := Option.map_eq_some_iff.mp (Reply.apply_answer hread)
              obtain ⟨hr, rfl⟩ := Delivery.Table.find_eq_some.mp hfind
              refine ⟨hknows hordinary r hr ?_, r, hr, rfl⟩
              exact (Prod.mk.inj heq).2.trans (createdBy_of_canManage hmanage hordinary)
            · trivial
      | allowed | refused => cases hphase
  | createUser params done =>
      cases done <;> cases h
      trivial
  | statement st done =>
      cases done <;> cases h
      trivial
  | otherTables sessions clients done =>
      cases done <;> cases h
      trivial
  | updateUser =>
      obtain ⟨_, _, heq⟩ := Option.map_eq_some_iff.mp h
      cases heq
      trivial
  | createLink =>
      obtain ⟨_, _, heq⟩ := Option.map_eq_some_iff.mp h
      cases heq
      trivial

/-- Before any link is created. -/
def OwnerStore.init (auth : AuthStore) (clients : ClientTable) : OwnerStore :=
  ⟨auth, clients, .empty, fun _ => none⟩

theorem knows_of_reachable {auth : AuthStore} {clients : ClientTable}
    {state : State OwnerStore OwnerCall}
    (h : Reachable (restrict (NamesApart srv.fns) srv.ownerSystem.step)
      ⟨.init auth clients, []⟩ state) :
    state.store.Owned ∧ ∀ call ∈ state.calls, call.Knows state.store := by
  apply h.preserves
  · constructor
    · intro user _ r hr
      cases hr
    · intro call hcall
      cases hcall
  · intro u a w hu hstep
    obtain ⟨howned, hknows⟩ := hu
    obtain ⟨hapart, hstep⟩ := restrict_eq_some.mp hstep
    rcases System.step_cases hstep with ⟨request, _, rfl⟩ | ⟨j, x, k, s', k', rfl, hk, hadvance, rfl⟩
    · refine ⟨howned, ?_⟩
      intro call hcall
      rcases List.mem_append.mp hcall with hcall | hcall
      · exact hknows call hcall
      · obtain rfl := List.mem_singleton.mp hcall
        cases request <;> trivial
    · have hmem := List.mem_of_getElem? hk
      have heffect := srv.ownerAdvance_effect hadvance
      have hnames : x.reply ≠ .failed → ∀ named ∈ k.names srv.fns x,
          Owns u.store named.2 named.1 := by
        intro hreply named hnamed
        apply (hapart hreply).1
        rw [hk]
        exact hnamed
      have hcreates : ∀ actor ∈ k.creates, actor ∈ u.calls[j]?.bind OwnerCall.creates := by
        intro actor hactor
        rw [hk]
        exact hactor
      constructor
      · apply howned.effect heffect hnames
        intro hreply actor hactor
        exact ((hapart hreply).2 actor (hcreates actor hactor)).1
      · intro call hcall
        rcases List.mem_or_eq_of_mem_set hcall with hcall | rfl
        · apply (hknows call hcall).effect heffect
          intro hreply actor hactor
          exact ((hapart hreply).2 actor (hcreates actor hactor)).2 call hcall
        · exact (hknows k hmem).advance howned hadvance

/-- One session, of this user. -/
def sampleSessionTable (userID : UUID) (sessionID : Text) : SessionTable :=
  (Table.ofRows [⟨9, userID, sampleServer.manager.tokenHash sessionID, 3600000000, 0, 0, none⟩]).getD
    .empty

def sampleOwnerStore : OwnerStore :=
  .init ⟨Auth.sampleUsers, sampleSessionTable 1 Auth.sampleID⟩ .empty

def sampleOwnerInputs : OwnerInputs where
  reply := .answered
  databaseNow := 0
  now := 0
  salt := some 0
  userID := some 2
  create := Delivery.sampleInputs

/-- The user creates a link. -/
def sampleCreation : List (Action OwnerRequest OwnerInputs) :=
  [.spawn (.createLink (signedIn Auth.sampleID .post) Delivery.sampleRequest),
    .advance 0 sampleOwnerInputs, .advance 0 sampleOwnerInputs]

/-- A session asks to manage its password. -/
def sampleManagement (i : ℕ) (sessionID : Text) : List (Action OwnerRequest OwnerInputs) :=
  [.spawn (.managePassword (signedIn sessionID .put) 7), .advance i sampleOwnerInputs,
    .advance i sampleOwnerInputs]

/-- The link that call `i` may manage, whether it decides by the name of a session, the
user of the session, and the creator of the link. -/
def managed (i : ℕ) (state : State OwnerStore OwnerCall) :
    Option (UUID × Bool × UUID × Option Creator) :=
  match state.calls[i]? with
  | some (.managePassword _ id (.allowed actor _)) =>
    some (id, ordinary actor, actor.userID, state.store.creator id)
  | _ => none

theorem managed_eq_some {i : ℕ} {state : State OwnerStore OwnerCall} {id userID : UUID}
    {creator : Option Creator} (h : managed i state = some (id, true, userID, creator)) :
    ∃ req actor createdBy, .managePassword req id (.allowed actor createdBy) ∈ state.calls ∧
      ordinary actor = true ∧ actor.userID = userID ∧ state.store.creator id = creator := by
  unfold managed at h
  split at h
  · next hcall =>
    simp only [Option.some.injEq, Prod.mk.injEq] at h
    obtain ⟨rfl, hordinary, huser, hcreator⟩ := h
    exact ⟨_, _, _, List.mem_of_getElem? hcall, hordinary, huser, hcreator⟩
  · cases h

/-- The user is renamed, and a new user gets the name and signs in. -/
def sampleSuccession : List (Action OwnerRequest OwnerInputs) :=
  [.spawn (.updateUser (.updateUser 1 ⟨some "anna".toList, none, none, none, none⟩)),
    .advance 1 sampleOwnerInputs, .advance 1 sampleOwnerInputs,
    .spawn (.createUser ⟨"ann".toList, "ann@example.org".toList, "long password".toList,
      "developer".toList, [], false⟩), .advance 2 sampleOwnerInputs,
    .spawn (.otherTables (sampleSessionTable 2 "BAUG".toList) .empty), .advance 3 sampleOwnerInputs]

end SecureShare.Http
