import SecureShare.Handlers.Services

/-!
# Who may do what

Three credentials may come with a request: those of an API client, the legacy key and the
cookie of a session. The first that is accepted decides who acts; one that is not accepted
leaves the decision to the others.
-/
namespace SecureShare.Handlers
open Go Library Library.Transition Http
open Delivery (UUID)
open Auth (Actor APIClientWithSecret Session scopeAllowed scopesMap permissionsForRole)

section access
variable (srv : Server) (r : Request) (permission : Text)

/-- The actor of an API client. -/
def clientActor (client : APIClientWithSecret) : Actor where
  actorID := "api-client:".toList ++ client.clientID
  permissions := scopesMap client.scopes
  apiClient := true
  clientID := client.clientID

/-- What `apiClientActor` checks of the row that it finds. -/
def clientAccepted (now : ℤ) (secret : Text) (client : APIClientWithSecret) : Bool :=
  Auth.isAPIClientUsable now client.toAPIClient &&
    Auth.verifyAPIClientSecret srv.hmac srv.cfg.tokenHMACPepper client.clientID secret
      client.secretHash &&
    scopeAllowed client.scopes permission

/-- A failed note of the use is only logged. -/
def apiClientActor : Prog (Option Actor) :=
  match r.basicAuth with
  | none => pure none
  | some (clientID, secret) =>
    if clientID = [] ∨ secret = [] then pure none
    else if srv.cfg.appEnv = "production".toList ∧ ¬r.requestHTTPS then pure none
    else do
      match ← perform (.apiClientByClientID clientID) with
      | none => pure none
      | some client =>
        let now ← perform .now
        if clientAccepted srv permission (now.getD 0) secret client then do
          let _ ← perform (.touchAPIClient client.id)
          pure (some (clientActor client))
        else pure none

/-- Why `requireAPI` refuses. -/
inductive Refusal where
  | forbidden | unauthorized
  deriving DecidableEq, Repr

/-- The part of `requireAPI` that looks at the cookie. -/
def requireSession : Prog (Except Refusal Actor) := do
  match ← fromRequest srv r with
  | none => pure (.error .unauthorized)
  | some session =>
    if permission ∈ session.permissions then
      if isStateChanging r.method ∧ ¬srv.validCSRF r session then pure (.error .forbidden)
      else pure (.ok (sessionActor session))
    else pure (.error .unauthorized)

def requireAPI : Prog (Except Refusal Actor) := do
  match ← apiClientActor srv r permission with
  | some actor => pure (.ok actor)
  | none =>
    if srv.acceptsBearer r then pure (.ok legacyActor)
    else requireSession srv r permission

end access

/-! ### The clients that were issued -/

section issued
variable {srv : Server} {s : Store} {inputs : Inputs} {t t' : Auth.ClientTable}

/-- One operation of any request. -/
def storeStep (srv : Server) (s : Store) (x : Inputs × Op) : Option Store :=
  some (act srv x.1 s x.2).1

def hashSecret (srv : Server) (clientID secret : Text) : Text :=
  Auth.hashAPIClientSecret srv.hmac srv.cfg.tokenHMACPepper clientID secret

/-- The client has an ID, and the hash of a secret that was drawn. -/
def Issued (srv : Server) (client : APIClientWithSecret) : Prop :=
  client.clientID ≠ [] ∧
    ∃ clientID bytes, client.secretHash = hashSecret srv clientID (Auth.newAPIClientSecret bytes)

/-- A secret that is drawn does not have the hash of the empty one. -/
def DrawsNonempty (srv : Server) : Prop := ∀ clientID bytes clientID',
  hashSecret srv clientID (Auth.newAPIClientSecret bytes) ≠ hashSecret srv clientID' []

def ClientsIssued (srv : Server) (t : Auth.ClientTable) : Prop := ∀ client ∈ t.rows, Issued srv client

theorem ClientsIssued.update {p : APIClientWithSecret → Bool}
    {f : APIClientWithSecret → APIClientWithSecret} (ht : ClientsIssued srv t)
    (h : t.update p f = some t') (hf : ∀ client, Issued srv client → Issued srv (f client)) :
    ClientsIssued srv t' := by
  intro client hclient
  rw [Table.rows_of_ofRows h] at hclient
  obtain ⟨old, hold, rfl⟩ := List.mem_map.mp hclient
  split_ifs
  · exact hf old (ht old hold)
  · exact ht old hold

theorem ClientsIssued.updateAPIClient {now : ℤ} {id : UUID} {client : Auth.APIClient}
    {f : APIClientWithSecret → APIClientWithSecret} (ht : ClientsIssued srv t)
    (h : Auth.Repository.updateAPIClient now t id f = some (t', client))
    (hf : ∀ client, Issued srv client → Issued srv (f client)) : ClientsIssued srv t' := by
  obtain ⟨t'', hupdate, h⟩ := Option.bind_eq_some_iff.mp h
  obtain ⟨_, _, heq⟩ := Option.map_eq_some_iff.mp h
  obtain ⟨rfl, _⟩ := Prod.mk.inj heq
  exact ht.update hupdate fun client hclient => hf client hclient

theorem ClientsIssued.insert {client : APIClientWithSecret} (ht : ClientsIssued srv t)
    (hclient : Issued srv client) (h : t.insert client = some t') : ClientsIssued srv t' := by
  intro other hother
  rw [Table.rows_of_ofRows h] at hother
  rcases List.mem_cons.mp hother with rfl | hother
  · exact hclient
  · exact ht other hother

theorem onClients_cases {α : Type} (r : Option (Auth.ClientTable × α)) :
    (onClients inputs s r).1.clients = s.clients ∨
    ∃ a, r = some ((onClients inputs s r).1.clients, a) := by
  rcases Interleaving.Reply.apply_store inputs.reply s _ with h | ⟨a, h⟩
  · exact .inl (congrArg Store.clients h)
  · obtain ⟨⟨t, b⟩, hr, heq⟩ := Option.map_eq_some_iff.mp h
    obtain ⟨hstore, rfl⟩ := Prod.mk.inj heq
    refine .inr ⟨b, hr.trans ?_⟩
    exact congrArg (fun s : Store => some (s.clients, b)) hstore

/-- A statement that leaves the clients alone. -/
theorem apply_clients {α : Type} {r : Option (Store × α)}
    (h : ∀ x ∈ r, x.1.clients = s.clients) :
    (inputs.reply.apply s r).1.clients = s.clients := by
  rcases Interleaving.Reply.apply_store inputs.reply s r with heq | ⟨a, heq⟩
  · rw [heq]
  · exact h _ heq

theorem onAuth_clients {α : Type} (r : Option (Auth.AuthStore × α)) :
    (onAuth inputs s r).1.clients = s.clients := by
  apply apply_clients
  intro x hx
  obtain ⟨_, _, rfl⟩ := Option.map_eq_some_iff.mp hx
  rfl

theorem reads_clients {α : Type} (r : Option α) : (reads inputs s r).1.clients = s.clients := by
  apply apply_clients
  intro x hx
  obtain ⟨_, _, rfl⟩ := Option.map_eq_some_iff.mp hx
  rfl

theorem onLinks_clients {α : Type} (r : Delivery.Table × α) :
    (onLinks inputs s r).1.clients = s.clients := by
  apply apply_clients
  rintro _ ⟨⟩
  rfl

theorem ClientsIssued.onClients {α : Type} {r : Option (Auth.ClientTable × α)}
    (hs : ClientsIssued srv s.clients) (h : ∀ x ∈ r, ClientsIssued srv x.1) :
    ClientsIssued srv (onClients inputs s r).1.clients := by
  rcases onClients_cases r with heq | ⟨a, heq⟩
  · rw [heq]
    exact hs
  · exact h _ heq

/-- Clients are issued by `CreateAPIClient` and get another secret by a rotation only. -/
theorem ClientsIssued.act (hs : ClientsIssued srv s.clients) (op : Op) :
    ClientsIssued srv (act srv inputs s op).1.clients := by
  cases op with
  | createAPIClient params =>
      unfold Handlers.act
      dsimp only
      split
      · next scopes idBytes secretBytes id _ _ _ _ =>
        apply hs.onClients
        intro x hx
        obtain ⟨⟨t, client⟩, hcreate, rfl⟩ := Option.map_eq_some_iff.mp hx
        unfold Auth.Repository.createAPIClient at hcreate
        dsimp only at hcreate
        split_ifs at hcreate
        obtain ⟨_, hinsert, heq⟩ := Option.map_eq_some_iff.mp hcreate
        obtain ⟨rfl, _⟩ := Prod.mk.inj heq
        refine hs.insert ⟨?_, _, secretBytes, rfl⟩ hinsert
        exact List.cons_ne_nil _ _
      · exact hs
  | touchAPIClient id =>
      apply hs.onClients
      intro x hx
      obtain ⟨t, hupdate, rfl⟩ := Option.map_eq_some_iff.mp hx
      exact hs.update hupdate fun _ h => h
  | setAPIClientStatus id status =>
      apply hs.onClients
      intro x hx
      exact hs.updateAPIClient hx fun _ h => h
  | rotateAPIClientSecret id clientID =>
      unfold Handlers.act
      dsimp only
      split
      · next secretBytes _ =>
        apply hs.onClients
        intro x hx
        obtain ⟨_, hrotate, rfl⟩ := Option.map_eq_some_iff.mp hx
        exact hs.updateAPIClient hrotate fun _ h => ⟨h.1, clientID, secretBytes, rfl⟩
      · exact hs
  | sessionByHash | createSession | revokeSession | revokeOtherSessions | createUser | updateUser
  | setPassword | setThemePreference | touchLastLogin =>
      exact (onAuth_clients _).symm ▸ hs
  | query | userForLogin | userByID | apiClientByClientID | apiClientByID | metadata | revokeStatus
  | prepare | findConsumeCandidate | getEmailSettings | getPublicSettings =>
      exact (reads_clients _).symm ▸ hs
  | revoke | updatePasswordProtection | recordPasswordFailure | beginConsume | restoreConsume
  | completeConsume =>
      exact (onLinks_clients _).symm ▸ hs
  | now | allow | insertParams | hashPassword | newLeaseID | vaultDecrypt | vaultEncrypt | smtp =>
      exact hs
  | insert | recordAuditEvent =>
      refine (apply_clients fun x hx => ?_).symm ▸ hs
      obtain ⟨_, _, rfl⟩ := Option.map_eq_some_iff.mp hx
      rfl
  | cleanup | saveEmailSettings | savePublicSettings =>
      refine (apply_clients fun x hx => ?_).symm ▸ hs
      cases hx
      rfl

theorem clientsIssued_of_reachable {start : Store} (hstart : start.clients = .empty)
    (h : Reachable (storeStep srv) start s) : ClientsIssued srv s.clients := by
  apply h.preserves
  · intro client hclient
    rw [hstart] at hclient
    cases hclient
  · intro u x v hu hstep
    cases hstep
    exact hu.act x.2

end issued

/-! ### What each credential grants -/

section grants
variable (srv : Server) (s : Store) (r : Request) (permission : Text)

/-- The Basic credentials name a stored client that is usable at this time, that has this
secret and whose scopes allow the permission. -/
structure ClientGrants (now : ℤ) (client : APIClientWithSecret) : Prop where
  stored : client ∈ s.clients.rows
  active : client.status = .active
  unexpired : ∀ expiresAt ∈ client.expiresAt, now < expiresAt * 1000
  secret : ∃ secret, r.basicAuth = some (client.clientID, secret) ∧ client.secretHash =
    Auth.hashAPIClientSecret srv.hmac srv.cfg.tokenHMACPepper client.clientID secret
  scopes : scopeAllowed client.scopes permission = true
  https : srv.cfg.appEnv = "production".toList → r.requestHTTPS = true

/-- The legacy key is enabled, and the bearer token is the key. -/
def KeyGrants : Prop :=
  srv.settings.legacyAdminAPIKeyEnabled = true ∧ r.bearerToken = srv.cfg.adminAPIKey

/-- The session is one whose role grants the permission, and a request that changes state
carries its CSRF token. -/
structure SessionGrants (session : Session) : Prop where
  role : permission ∈ permissionsForRole session.role
  csrf : isStateChanging r.method → srv.validCSRF r session = true

/-- The request with its cookie alone. -/
def cookieOnly : Request := { r with authorization := [], basicAuth := none }

end grants

section
variable {srv : Server} {s : Store} {r : Request} {permission : Text} {inputs : ℕ → Inputs}

/-- The result of a program. -/
def result {α : Type} (srv : Server) (s : Store) (p : Prog α) (inputs : ℕ → Inputs) : α :=
  (Program.eval (act srv) s p inputs).2.1

theorem mem_scopesMap_iff {scopes : List Text} {q : Text} :
    q ∈ scopesMap scopes ↔ scopeAllowed scopes q = true := by
  unfold scopesMap scopeAllowed
  rw [List.any_eq_true]
  constructor
  · intro h
    split_ifs at h with hlist
    · rcases List.mem_cons.mp h with rfl | h
      · exact ⟨_, hlist, by simp⟩
      · exact ⟨q, h, by simp⟩
    · exact ⟨q, h, by simp⟩
  · rintro ⟨scope, hscope, h⟩
    rw [Bool.or_eq_true, decide_eq_true_eq, Bool.and_eq_true, decide_eq_true_eq,
      decide_eq_true_eq] at h
    rcases h with rfl | ⟨rfl, rfl⟩
    · split_ifs
      · exact List.mem_cons_of_mem _ hscope
      · exact hscope
    · rw [if_pos hscope]
      exact List.mem_cons_self

theorem clientAccepted_iff {now : ℤ} {secret : Text} {client : APIClientWithSecret} :
    clientAccepted srv permission now secret client = true ↔
      client.status = .active ∧ (∀ expiresAt ∈ client.expiresAt, now < expiresAt * 1000) ∧
      client.secretHash =
        Auth.hashAPIClientSecret srv.hmac srv.cfg.tokenHMACPepper client.clientID secret ∧
      scopeAllowed client.scopes permission = true := by
  simp only [clientAccepted, Auth.isAPIClientUsable, Auth.verifyAPIClientSecret, Bool.and_eq_true,
    decide_eq_true_eq, Option.all_eq_true]
  constructor
  · rintro ⟨⟨⟨hactive, hexpires⟩, hsecret⟩, hscopes⟩
    exact ⟨hactive, fun e he => by simpa using hexpires e he, hsecret.symm, hscopes⟩
  · rintro ⟨hactive, hexpires, hsecret, hscopes⟩
    exact ⟨⟨⟨hactive, fun e he => by simpa using hexpires e he⟩, hsecret.symm⟩, hscopes⟩

/-- A statement that reads tells what it finds, if its answer arrives. -/
theorem reads_eq {α : Type} (inputs : Inputs) (s : Store) (r : Option α) :
    reads inputs s r = (s, if inputs.reply = .answered then r else none) := by
  unfold reads
  cases inputs.reply <;> cases r <;> rfl

/-- How `apiClientActor` ends. -/
inductive ClientOutcome (srv : Server) (s : Store) (r : Request) (permission : Text)
    (inputs : ℕ → Inputs) : Store → Option Actor → Prop
  | accepted (client : APIClientWithSecret) (s' : Store) :
      ClientGrants srv s r permission (inputs 1).now client →
      ClientOutcome srv s r permission inputs s' (some (clientActor client))
  | refused : ((inputs 0).reply = .answered → ClientsIssued srv s.clients → DrawsNonempty srv →
        ∀ client, ¬ClientGrants srv s r permission (inputs 1).now client) →
      ClientOutcome srv s r permission inputs s none

theorem apiClientActor_outcome : ClientOutcome srv s r permission inputs
    (Program.eval (act srv) s (apiClientActor srv r permission) inputs).1
    (result srv s (apiClientActor srv r permission) inputs) := by
  unfold result apiClientActor
  cases hbasic : r.basicAuth with
  | none =>
      refine .refused fun _ _ _ client hgrants => ?_
      obtain ⟨_, hsecret, _⟩ := hgrants.secret
      rw [hbasic] at hsecret
      cases hsecret
  | some credentials =>
      obtain ⟨clientID, secret⟩ := credentials
      simp only
      split_ifs with hempty hhttps
      · refine .refused fun _ hissued hdrawn client hgrants => ?_
        obtain ⟨_, hsecret, hhash⟩ := hgrants.secret
        rw [hbasic, Option.some.injEq, Prod.mk.injEq] at hsecret
        obtain ⟨rfl, rfl⟩ := hsecret
        obtain ⟨hid, _, _, hdraw⟩ := hissued client hgrants.stored
        rcases hempty with hempty | rfl
        · exact hid hempty
        · exact hdrawn _ _ _ (hdraw.symm.trans hhash)
      · refine .refused fun _ _ _ client hgrants => ?_
        exact hhttps.2 (hgrants.https hhttps.1)
      · have hfind : act srv (inputs 0) s (.apiClientByClientID clientID) =
            (s, if (inputs 0).reply = .answered then
              Auth.Repository.apiClientByClientID s.clients clientID else none) :=
          reads_eq _ _ _
        simp only [perform, Program.eval_bind, Program.eval_perform, hfind]
        split
        · next hnone =>
          refine .refused fun hanswered _ _ client hgrants => ?_
          obtain ⟨_, hsecret, _⟩ := hgrants.secret
          rw [hbasic, Option.some.injEq, Prod.mk.injEq] at hsecret
          rw [if_pos hanswered, hsecret.1] at hnone
          cases hnone.symm.trans
            ((Table.find_eq_some Auth.isKey_clientID).mpr ⟨hgrants.stored, rfl⟩)
        · next client hsome =>
          split_ifs at hsome
          obtain ⟨hstored, hid⟩ : client ∈ s.clients.rows ∧ client.clientID = clientID :=
            (Table.find_eq_some Auth.isKey_clientID).mp hsome
          have hnow : act srv (inputs 1) s .now = (s, some (inputs 1).now) := rfl
          simp only [Program.eval_bind, Program.eval_perform, hnow, Option.getD_some]
          split_ifs with haccepted
          · obtain ⟨hactive, hexpires, hsecret, hscopes⟩ := clientAccepted_iff.mp haccepted
            refine .accepted client _ ⟨hstored, hactive, hexpires, ⟨secret, ?_, hsecret⟩, hscopes,
              fun hproduction => ?_⟩
            · rw [hbasic, hid]
            · by_contra hmarked
              exact hhttps ⟨hproduction, hmarked⟩
          · refine .refused fun _ _ _ client' hgrants => haccepted ?_
            obtain ⟨secret', hsecret', hhash⟩ := hgrants.secret
            rw [hbasic, Option.some.injEq, Prod.mk.injEq, ← hid] at hsecret'
            obtain ⟨hid', rfl⟩ := hsecret'
            obtain rfl := Table.eq_of_clash hstored hgrants.stored (Auth.isKey_clientID hid')
            exact clientAccepted_iff.mpr
              ⟨hgrants.active, hgrants.unexpired, hhash, hgrants.scopes⟩

theorem acceptsBearer_iff (hkey : srv.cfg.adminAPIKey ≠ [])
    (hsha : ∀ value, srv.sha256 value = srv.sha256 srv.cfg.adminAPIKey →
      value = srv.cfg.adminAPIKey) : srv.acceptsBearer r = true ↔ KeyGrants srv r := by
  simp only [Server.acceptsBearer, Server.validAdminKey, KeyGrants, Bool.and_eq_true,
    decide_eq_true_eq]
  constructor
  · rintro ⟨⟨_, henabled⟩, hsame⟩
    exact ⟨henabled, hsha _ hsame⟩
  · rintro ⟨henabled, hsame⟩
    exact ⟨⟨hsame ▸ hkey, henabled⟩, by rw [hsame]⟩

/-- How the cookie decides. -/
theorem requireSession_eq : result srv s (requireSession srv r permission) inputs =
    match result srv s (fromRequest srv r) inputs with
    | none => .error .unauthorized
    | some session =>
      if permission ∈ session.permissions then
        if isStateChanging r.method ∧ ¬srv.validCSRF r session then .error .forbidden
        else .ok (sessionActor session)
      else .error .unauthorized := by
  unfold result requireSession
  rw [Program.eval_bind]
  cases (Program.eval (act srv) s (fromRequest srv r) inputs).2.1 with
  | none => rfl
  | some session =>
      simp only
      split_ifs <;> rfl

theorem lookup_of_fromRequest {session : Session}
    (h : result srv s (fromRequest srv r) inputs = some session) :
    ∃ id auth, srv.manager.lookup (inputs 0).now s.auth id = some (auth, session) := by
  unfold result fromRequest at h
  split at h
  · cases h
  · next id _ =>
    have hanswer : (onAuth (inputs 0) s (srv.manager.lookup (inputs 0).now s.auth id)).2 =
        some session := h
    obtain ⟨found, hlookup, heq⟩ :=
      Option.map_eq_some_iff.mp (Interleaving.Reply.apply_answer hanswer)
    obtain rfl := (Prod.mk.inj heq).2
    exact ⟨id, found.1, hlookup⟩

/-- A session has the permissions of its role. -/
theorem fromRequest_permissions {session : Session}
    (h : result srv s (fromRequest srv r) inputs = some session) :
    session.permissions = permissionsForRole session.role := by
  obtain ⟨id, auth, hlookup⟩ := lookup_of_fromRequest h
  obtain ⟨accepted, _, heq⟩ := Option.map_eq_some_iff.mp hlookup
  rw [← (Prod.mk.inj heq).2]
  rfl

theorem requireSession_ok {actor : Actor} :
    result srv s (requireSession srv r permission) inputs = .ok actor ↔
      ∃ session, result srv s (fromRequest srv r) inputs = some session ∧
        SessionGrants srv r permission session ∧ actor = sessionActor session := by
  rw [requireSession_eq]
  cases hsession : result srv s (fromRequest srv r) inputs with
  | none =>
      constructor
      · intro h
        cases h
      · rintro ⟨_, h, _⟩
        cases h
  | some session =>
      have hpermissions := fromRequest_permissions hsession
      simp only [hpermissions]
      constructor
      · intro h
        split_ifs at h with hrole hcsrf
        cases h
        refine ⟨session, rfl, ⟨hrole, fun hchanging => ?_⟩, rfl⟩
        by_contra hinvalid
        exact hcsrf ⟨hchanging, hinvalid⟩
      · rintro ⟨_, heq, hgrants, rfl⟩
        cases heq
        rw [if_pos hgrants.role, if_neg fun h => h.2 (hgrants.csrf h.1)]

/-- The actor holds this permission and otherwise those that the credential is granted. -/
def Holds (actor : Actor) (permission : Text) (granted : Text → Prop) : Prop :=
  permission ∈ actor.permissions ∧ ∀ q, q ∈ actor.permissions ↔ granted q

/-- Who is granted, and by which credential. The cookie is looked at with the inputs that are
left. -/
inductive GrantedBy (srv : Server) (s : Store) (r : Request) (permission : Text) (now : ℤ)
    (rest : ℕ → Inputs) : Actor → Prop
  | client (client : APIClientWithSecret) : ClientGrants srv s r permission now client →
      Holds (clientActor client) permission (fun q => scopeAllowed client.scopes q = true) →
      GrantedBy srv s r permission now rest (clientActor client)
  | key : KeyGrants srv r → GrantedBy srv s r permission now rest legacyActor
  | session (session : Session) : result srv s (fromRequest srv r) rest = some session →
      SessionGrants srv r permission session →
      Holds (sessionActor session) permission (· ∈ permissionsForRole session.role) →
      GrantedBy srv s r permission now rest (sessionActor session)

/-- The answer of `requireAPI` after that of `apiClientActor`. -/
def afterClient (srv : Server) (r : Request) (permission : Text)
    (found : Store × Option Actor × (ℕ → Inputs)) : Except Refusal Actor :=
  match found.2.1 with
  | some actor => .ok actor
  | none =>
    if srv.acceptsBearer r then .ok legacyActor
    else result srv found.1 (requireSession srv r permission) found.2.2

theorem requireAPI_eq : result srv s (requireAPI srv r permission) inputs =
    afterClient srv r permission
      (Program.eval (act srv) s (apiClientActor srv r permission) inputs) := by
  unfold result requireAPI afterClient
  rw [Program.eval_bind]
  split
  · rfl
  · split_ifs
    · rfl
    · rfl

theorem requireAPI_granted {t : Store} {answer : Option Actor} {rest : ℕ → Inputs}
    (hbearer : srv.acceptsBearer r = true ↔ KeyGrants srv r)
    (houtcome : ClientOutcome srv s r permission inputs t answer) {actor : Actor}
    (h : afterClient srv r permission (t, answer, rest) = .ok actor) :
    GrantedBy srv s r permission (inputs 1).now rest actor := by
  cases houtcome with
  | accepted client _ hgrants =>
      cases h
      exact .client client hgrants ⟨mem_scopesMap_iff.mpr hgrants.scopes, fun q => mem_scopesMap_iff⟩
  | refused =>
      unfold afterClient at h
      dsimp only at h
      split_ifs at h with haccepts
      · cases h
        exact .key (hbearer.mp haccepts)
      · obtain ⟨session, hsession, hgrants, rfl⟩ := requireSession_ok.mp h
        have hpermissions := fromRequest_permissions hsession
        have hholds : ∀ q, q ∈ (sessionActor session).permissions ↔
            q ∈ permissionsForRole session.role := by
          intro q
          rw [← hpermissions]
          rfl
        exact .session session hsession hgrants ⟨(hholds _).mpr hgrants.role, hholds⟩

/-- `requireAPI` grants exactly what one of the credentials grants, if the database answers
where the client is looked up; and where neither Basic nor bearer credentials are accepted,
exactly what the cookie alone does. -/
theorem requireAPI_exact (hkey : srv.cfg.adminAPIKey ≠ [])
    (hsha : ∀ value, srv.sha256 value = srv.sha256 srv.cfg.adminAPIKey →
      value = srv.cfg.adminAPIKey) (hdrawn : DrawsNonempty srv) {start : Store}
    (hstart : start.clients = .empty) (hs : Reachable (storeStep srv) start s) (r : Request)
    (permission : Text) (inputs : ℕ → Inputs) :
    let rest := (Program.eval (act srv) s (apiClientActor srv r permission) inputs).2.2
    (∀ actor, result srv s (requireAPI srv r permission) inputs = .ok actor →
      GrantedBy srv s r permission (inputs 1).now rest actor) ∧
    ((r.basicAuth.isSome → (inputs 0).reply = .answered) →
      ((∃ actor, result srv s (requireAPI srv r permission) inputs = .ok actor) ↔
        (∃ client, ClientGrants srv s r permission (inputs 1).now client) ∨ KeyGrants srv r ∨
          ∃ session, result srv s (fromRequest srv r) rest = some session ∧
            SessionGrants srv r permission session)) ∧
    (result srv s (apiClientActor srv r permission) inputs = none → ¬KeyGrants srv r →
      result srv s (requireAPI srv r permission) inputs =
        result srv s (requireAPI srv (cookieOnly r) permission) rest) := by
  have houtcome : ClientOutcome srv s r permission inputs _ _ := apiClientActor_outcome
  have hbearer := acceptsBearer_iff (r := r) hkey hsha
  rw [requireAPI_eq]
  have hanswer : result srv s (apiClientActor srv r permission) inputs =
      (Program.eval (act srv) s (apiClientActor srv r permission) inputs).2.1 := rfl
  rw [hanswer] at houtcome ⊢
  generalize Program.eval (act srv) s (apiClientActor srv r permission) inputs = found
    at houtcome ⊢
  obtain ⟨t, answer, rest⟩ := found
  refine ⟨fun actor h => requireAPI_granted hbearer houtcome h, fun hanswered => ⟨?_, ?_⟩, ?_⟩
  · rintro ⟨actor, h⟩
    cases requireAPI_granted hbearer houtcome h with
    | client client hgrants => exact .inl ⟨client, hgrants⟩
    | key hgrants => exact .inr (.inl hgrants)
    | session session hsession hgrants => exact .inr (.inr ⟨session, hsession, hgrants⟩)
  · intro h
    cases houtcome with
    | accepted client _ _ => exact ⟨_, rfl⟩
    | refused hnone =>
        unfold afterClient
        dsimp only
        split_ifs with haccepts
        · exact ⟨_, rfl⟩
        · rcases h with ⟨client, hgrants⟩ | hgrants | ⟨session, hsession, hgrants⟩
          · have hbasic : r.basicAuth.isSome := by
              obtain ⟨_, hsecret, _⟩ := hgrants.secret
              rw [hsecret]
              rfl
            exact absurd hgrants
              (hnone (hanswered hbasic) (clientsIssued_of_reachable hstart hs) hdrawn client)
          · exact absurd (hbearer.mpr hgrants) haccepts
          · exact ⟨_, requireSession_ok.mpr ⟨session, hsession, hgrants, rfl⟩⟩
  · rintro rfl hnokey
    cases houtcome
    have hcookie : result srv t (requireAPI srv (cookieOnly r) permission) rest =
        result srv t (requireSession srv r permission) rest := by
      rw [requireAPI_eq]
      rfl
    refine Eq.trans ?_ hcookie.symm
    exact if_neg fun h => hnokey (hbearer.mp h)

end

/-- The bytes of the text, in place of a hash of them. -/
def utf8 (s : Text) : Delivery.Bytes := s.flatMap String.utf8EncodeChar

theorem utf8_injective : Function.Injective utf8 := by
  intro s t h
  have hencode : s.utf8Encode = t.utf8Encode := by
    rw [List.utf8Encode, List.utf8Encode]
    exact congrArg List.toByteArray h
  have hdecode := List.utf8Decode?_utf8Encode (l := s)
  rw [hencode, List.utf8Decode?_utf8Encode] at hdecode
  simpa using hdecode.symm

def sampleAccess : Server :=
  { sampleServer with
    hmac := fun _ message => utf8 message
    sha256 := utf8 }

/-- The message of the empty secret ends with a colon, which no secret that is drawn does. -/
theorem sampleAccess_drawsNonempty : DrawsNonempty sampleAccess := by
  intro clientID bytes clientID' h
  have hmessage := utf8_injective (rawURLEncode_injective h)
  have hsecret : Auth.newAPIClientSecret bytes =
      "sscs".toList ++ ("_".toList ++ rawURLEncode bytes) := rfl
  have hlast : ("_".toList ++ rawURLEncode bytes).getLast? = some ':' := by
    rw [hsecret, List.append_nil, ← List.append_assoc] at hmessage
    have hne : "_".toList ++ rawURLEncode bytes ≠ [] := List.cons_ne_nil _ _
    have hsame := congrArg List.getLast? hmessage
    rw [List.getLast?_append_of_ne_nil _ hne,
      List.getLast?_append_of_ne_nil _ (by decide : ":".toList ≠ [])] at hsame
    exact hsame
  have hcolon : ':' ∈ "_".toList ++ rawURLEncode bytes := List.mem_of_getLast? hlast
  rcases List.mem_append.mp hcolon with hmem | hmem
  · revert hmem
    decide
  · have halphabet := rawURLEncode_subset bytes _ hmem
    revert halphabet
    decide

def sampleStore : Store where
  auth := ⟨Auth.sampleUsers, .empty⟩
  clients := .empty
  links := .empty
  email := none
  publicExperience := none
  audit := []

def sampleHandlerInputs : Inputs where
  reply := .answered
  databaseNow := 0
  now := 0
  pick := 0
  allowed := true
  salt := some 0
  nonce := some 0
  vaultUp := true
  id := some 7
  idBytes := some [1, 2, 3]
  secretBytes := some [4, 5, 6]
  create := Delivery.sampleInputs
  smtp := none

/-- The store with a session of the sample user. -/
def sampleSession : Store :=
  (act sampleServer sampleHandlerInputs sampleStore (.createSession Auth.sampleUser.toUser)).1

/-- A client is issued that may create links. -/
def sampleIssue : Op :=
  .createAPIClient ⟨"service".toList, none, ["secret:create".toList], none⟩

/-- A request with the ID and the secret of the client. -/
def sampleClientRequest : Request :=
  { signedIn Auth.sampleID .post with
    cookie := none
    basicAuth := some (Auth.newAPIClientID [1, 2, 3], Auth.newAPIClientSecret [4, 5, 6]) }

theorem requireAPI_exact_sample : ∃ s actor, Reachable (storeStep sampleAccess) sampleStore s ∧
    result sampleAccess s (requireAPI sampleAccess sampleClientRequest "secret:create".toList)
      (fun _ => sampleHandlerInputs) = .ok actor ∧
    GrantedBy sampleAccess s sampleClientRequest "secret:create".toList 0
      (fun _ => sampleHandlerInputs) actor := by
  have hissue : storeStep sampleAccess sampleStore (sampleHandlerInputs, sampleIssue) =
      some (act sampleAccess sampleHandlerInputs sampleStore sampleIssue).1 := rfl
  have hs := Reachable.of_step hissue
  have hgrants : (result sampleAccess (act sampleAccess sampleHandlerInputs sampleStore sampleIssue).1
      (requireAPI sampleAccess sampleClientRequest "secret:create".toList)
      fun _ => sampleHandlerInputs) =
      .ok { actorID := "api-client:ssc_AQID".toList
            permissions := ["secret:create".toList]
            apiClient := true
            clientID := "ssc_AQID".toList } := by
    decide +kernel
  have hkey : sampleAccess.cfg.adminAPIKey ≠ [] := by decide
  have hexact := requireAPI_exact hkey (fun _ h => utf8_injective h) sampleAccess_drawsNonempty
    rfl hs sampleClientRequest "secret:create".toList fun _ => sampleHandlerInputs
  exact ⟨_, _, hs, hgrants, hexact.1 _ hgrants⟩

end SecureShare.Handlers
