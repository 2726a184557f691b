import SecureShare.Handlers.Csrf

/-!
# Separation of duties

Which accounts change which tables. The policy is about calls; here the answers of the calls
are those of the store, so that sessions have the permissions of their roles and clients the
scopes that the schema allows.
-/
namespace SecureShare.Handlers
open Go Library Http
open Auth (User Session Actor APIClientWithSecret permissionsForRole allowedAPIScopes)
open Delivery (UUID)

section
variable (srv : Server) (r : Request) (calls : Calls)

/-- The legacy key was accepted, or the session of an administrator found. -/
def Administers : Prop :=
  srv.acceptsBearer r = true ∨ ∃ session, SessionFound srv r calls session ∧ session.role = .admin

/-- The answers are those of the store. -/
def Genuine : Prop := ∀ call ∈ calls, ∃ x s, (act srv x s call.op).2 = call.answer

/-- A client, but for its last use. -/
def unused (client : APIClientWithSecret) : APIClientWithSecret :=
  { client with
    lastUsedAt := none
    updatedAt := 0 }

end

section
variable {srv : Server} {r : Request} {calls : Calls} {permission : String} {x : Inputs} {s : Store}

theorem genuine_of_run {rely : Store → Store → Prop} {p : Prog Response}
    {pre post : List (Event Store Op Op.Answer)}
    (hrun : Program.Run (act srv) rely s p (pre ++ post)) : Genuine srv (pre.map Event.call) := by
  intro call hcall
  obtain ⟨e, he, rfl⟩ := List.mem_map.mp hcall
  obtain ⟨x, hact⟩ := hrun.mem (List.mem_append_left _ he)
  exact ⟨x, e.before, congrArg Prod.snd hact⟩

theorem permissions_of_found {session : Session} (hcalls : Genuine srv calls)
    (h : SessionFound srv r calls session) : session.permissions = permissionsForRole session.role := by
  obtain ⟨id, _, hmem⟩ := h
  obtain ⟨x, s, hanswer⟩ := hcalls _ hmem
  obtain ⟨auth, hlookup⟩ := answer_of_onAuth hanswer
  obtain ⟨found, _, heq⟩ := Option.map_eq_some_iff.mp hlookup
  cases heq
  rfl

/-- A client has no scopes beyond those that the schema allows. -/
theorem scope_of_accepted {client : APIClientWithSecret} {permission : Text}
    (hcalls : Genuine srv calls) (h : ClientAccepted srv r calls permission client) :
    permission ∈ allowedAPIScopes := by
  obtain ⟨⟨clientID, secret, now, _, hmem, _, haccepted⟩, _⟩ := h
  obtain ⟨x, s, hanswer⟩ := hcalls _ hmem
  have hfind : s.clients.find (·.clientID) clientID = some client := answer_of_reads hanswer
  obtain ⟨_, _, _, _, hscopes⟩ := s.clients.checks client (Table.mem_of_find hfind)
  obtain ⟨_, _, _, hallowed⟩ := clientAccepted_iff.mp haccepted
  rw [Auth.scopeAllowed, List.any_eq_true] at hallowed
  obtain ⟨scope, hscope, hsame⟩ := hallowed
  rw [Bool.or_eq_true, decide_eq_true_eq, Bool.and_eq_true, decide_eq_true_eq] at hsame
  rcases hsame with rfl | ⟨rfl, _⟩
  · exact hscopes scope hscope
  · decide

/-- The permissions that only administrators have. -/
def adminPermissions : List Text :=
  ["user:manage".toList, "api-client:manage".toList, "email-settings:manage".toList,
    "public-experience:manage".toList, "system:cleanup".toList]

theorem administers_of_granted (hcalls : Genuine srv calls)
    (hadmin : permission.toList ∈ adminPermissions) (h : Granted srv r calls permission) :
    Administers srv r calls := by
  have hclients : ∀ p ∈ adminPermissions, p ∉ allowedAPIScopes := by decide
  have hroles : ∀ p ∈ adminPermissions, ∀ role, p ∈ permissionsForRole role → role = .admin := by
    intro p hp role
    revert p
    cases role <;> decide
  obtain ⟨actor, hactor⟩ := h
  cases hactor with
  | client client haccepted => exact absurd (scope_of_accepted hcalls haccepted) (hclients _ hadmin)
  | key hbearer => exact .inl hbearer
  | session session hsession hpermission =>
      rw [permissions_of_found hcalls hsession] at hpermission
      exact .inr ⟨session, hsession, hroles _ hadmin _ hpermission⟩

/-- Who may change links through the API. -/
def ManagesLinks (srv : Server) (r : Request) (calls : Calls) : Prop :=
  Administers srv r calls ∨ (∃ session, SessionFound srv r calls session ∧ session.role = .developer) ∨
    ∃ permission client, ClientAccepted srv r calls permission client

theorem managesLinks_of_granted (hcalls : Genuine srv calls)
    (hlink : permission.toList ∉ permissionsForRole .viewer) (h : Granted srv r calls permission) :
    ManagesLinks srv r calls := by
  obtain ⟨actor, hactor⟩ := h
  cases hactor with
  | client client haccepted => exact .inr (.inr ⟨_, client, haccepted⟩)
  | key hbearer => exact .inl (.inl hbearer)
  | session session hsession hpermission =>
      rw [permissions_of_found hcalls hsession] at hpermission
      cases hrole : session.role with
      | admin => exact .inl (.inr ⟨session, hsession, hrole⟩)
      | developer => exact .inr (.inl ⟨session, hsession, hrole⟩)
      | viewer =>
          rw [hrole] at hpermission
          exact absurd hpermission hlink

/-- The account is that of the session, or of a user who has logged in. -/
def OwnAccount (srv : Server) (r : Request) (calls : Calls) (id : UUID) : Prop :=
  (∃ session, SessionFound srv r calls session ∧ session.userID = id) ∨
    ∃ user, Authenticated srv r calls user ∧ user.id = id

theorem own_of_self {id : UUID} (hcalls : Genuine srv calls) (h : Self srv r calls id) :
    Administers srv r calls ∨ OwnAccount srv r calls id := by
  obtain ⟨actor, hactor, rfl⟩ := h
  cases hactor with
  | client client haccepted =>
      exact absurd (scope_of_accepted hcalls haccepted) (by decide)
  | key hbearer => exact .inl (.inl hbearer)
  | session session hsession _ => exact .inr (.inl ⟨session, hsession, rfl⟩)

/-! ### Each part of the store -/

theorem administers_of_settings {op : Op} (hcalls : Genuine srv calls)
    (hop : op.part = some .email ∨ op.part = some .publicExperience)
    (h : Permitted srv r calls op) : Administers srv r calls := by
  cases op with
  | saveEmailSettings settings =>
      exact administers_of_granted hcalls (by decide : "email-settings:manage".toList ∈ _) h
  | savePublicSettings settings =>
      exact administers_of_granted hcalls (by decide : "public-experience:manage".toList ∈ _) h
  | _ => rcases hop with hop | hop <;> cases hop

theorem administers_of_clients {op : Op} (hcalls : Genuine srv calls)
    (hop : op.part = some .clients) (h : Permitted srv r calls op) :
    (∃ id, op = .touchAPIClient id) ∨ Administers srv r calls := by
  cases op with
  | touchAPIClient id => exact .inl ⟨id, rfl⟩
  | createAPIClient | setAPIClientStatus | rotateAPIClientSecret =>
      exact .inr (administers_of_granted hcalls (by decide : "api-client:manage".toList ∈ _) h)
  | _ => cases hop

/-- Links are changed by those who manage them, and where their token was presented. -/
theorem managesLinks_of_links {op : Op} (hcalls : Genuine srv calls)
    (hop : op.part = some .links) (h : Permitted srv r calls op) :
    ManagesLinks srv r calls ∨ ∃ tokenHash password, Presented srv r tokenHash password := by
  have hunlocked : ∀ {tokenHash passwordHash}, Unlocked srv r calls tokenHash passwordHash →
      ∃ tokenHash password, Presented srv r tokenHash password := by
    rintro tokenHash _ ⟨password, _, hpresented, _⟩
    exact ⟨tokenHash, password, hpresented⟩
  cases op with
  | insert params =>
      obtain ⟨actor, _, _, hactor, _⟩ := h
      exact .inl (managesLinks_of_granted hcalls
        (by decide : "secret:create".toList ∉ permissionsForRole .viewer) ⟨actor, hactor⟩)
  | revoke id =>
      exact .inl (managesLinks_of_granted hcalls
        (by decide : "secret:revoke".toList ∉ permissionsForRole .viewer) h)
  | updatePasswordProtection id hash =>
      obtain ⟨actor, _, hactor, _⟩ := h
      exact .inl (managesLinks_of_granted hcalls
        (by decide : "secret:manage-protection".toList ∉ permissionsForRole .viewer) ⟨actor, hactor⟩)
  | cleanup =>
      exact .inl (.inl (administers_of_granted hcalls (by decide : "system:cleanup".toList ∈ _) h))
  | recordPasswordFailure tokenHash hash =>
      obtain ⟨password, _, hpresented, _⟩ := h
      exact .inr ⟨tokenHash, password, hpresented⟩
  | beginConsume tokenHash hash leaseID => exact .inr (hunlocked h.1)
  | restoreConsume id leaseID =>
      obtain ⟨_, ⟨_, _, h, _⟩, _⟩ := h
      exact .inr (hunlocked h)
  | completeConsume id leaseID =>
      obtain ⟨_, _, ⟨_, _, h, _⟩, _⟩ := h
      exact .inr (hunlocked h)
  | _ => cases hop

/-- The row of this user is as before. -/
def UserKept (id : UUID) (s t : Auth.AuthStore) : Prop := t.users.find (·.id) id = s.users.find (·.id) id

theorem onAuth_userKept {α : Type} {id : UUID} {q : Option (Auth.AuthStore × α)}
    (h : ∀ y ∈ q, UserKept id s.auth y.1) : UserKept id s.auth (onAuth x s q).1.auth := by
  refine apply_cases (P := fun t => UserKept id s.auth t.auth) rfl fun y hy => ?_
  obtain ⟨found, hfound, rfl⟩ := Option.map_eq_some_iff.mp hy
  exact h found hfound

/-- An UPDATE of one user keeps the others. -/
theorem updateRow_userKept {α : Type} {id other : UUID} {q : Option (Auth.UserTable × α)}
    (hq : ∀ y ∈ q, ∃ now f, Auth.Repository.updateRow now s.auth.users id f = some y.1 ∧
      ∀ row : Auth.UserWithPassword, (f row).id = row.id) (hne : other ≠ id) :
    UserKept other s.auth (onUsers x s q).1.auth := by
  refine onAuth_userKept fun y hy => ?_
  obtain ⟨found, hfound, rfl⟩ := Option.map_eq_some_iff.mp hy
  obtain ⟨now, f, hupdate, hf⟩ := hq found hfound
  refine (Auth.Repository.find_updateRow hupdate hf other).trans ?_
  simp [hne]

theorem own_of_users {op : Op} {other : UUID} (hcalls : Genuine srv calls)
    (hchange : ¬UserKept other s.auth (act srv x s op).1.auth) (h : Permitted srv r calls op) :
    Administers srv r calls ∨ OwnAccount srv r calls other := by
  have hpart : op.part = some .auth := by
    by_contra hpart
    have hsame : (act srv x s op).1.auth = s.auth := (act_part hpart : Part.Same .auth s _)
    rw [hsame] at hchange
    exact hchange rfl
  cases op with
  | sessionByHash id =>
      refine absurd (onAuth_userKept fun y hy => ?_) hchange
      rw [UserKept, (lookup_same hy).1]
  | createSession user =>
      refine absurd (onAuth_userKept fun y hy => ?_) hchange
      unfold Auth.SessionManager.issue at hy
      split at hy
      · obtain ⟨created, hcreated, rfl⟩ := Option.map_eq_some_iff.mp hy
        unfold Auth.Repository.createSession at hcreated
        split_ifs at hcreated
        obtain ⟨_, _, rfl⟩ := Option.map_eq_some_iff.mp hcreated
        rfl
      · cases hy
  | revokeSession | revokeOtherSessions =>
      refine absurd (onAuth_userKept fun y hy => ?_) hchange
      obtain ⟨_, _, rfl⟩ := Option.map_eq_some_iff.mp hy
      rfl
  | createUser | updateUser =>
      exact .inl (administers_of_granted hcalls (by decide : "user:manage".toList ∈ _) h)
  | setPassword id password force =>
      rcases h with h | ⟨hself, _⟩
      · exact .inl (administers_of_granted hcalls (by decide : "user:manage".toList ∈ _) h)
      · have hid : other = id := by
          by_contra hne
          refine hchange (updateRow_userKept (fun y hy => ?_) hne)
          obtain ⟨hash, _, hset⟩ := Option.bind_eq_some_iff.mp hy
          obtain ⟨t, ht, rfl⟩ := Option.map_eq_some_iff.mp hset
          exact ⟨_, _, ht, fun _ => rfl⟩
        exact hid ▸ own_of_self hcalls hself
  | setThemePreference id theme =>
      have hid : other = id := by
        by_contra hne
        refine hchange (updateRow_userKept (fun y hy => ?_) hne)
        obtain ⟨t, ht, hread⟩ := Option.bind_eq_some_iff.mp hy
        obtain ⟨_, _, rfl⟩ := Option.map_eq_some_iff.mp hread
        exact ⟨_, _, ht, fun _ => rfl⟩
      exact hid ▸ own_of_self hcalls h
  | touchLastLogin id =>
      have hid : other = id := by
        by_contra hne
        refine hchange (updateRow_userKept (fun y hy => ?_) hne)
        obtain ⟨t, ht, rfl⟩ := Option.map_eq_some_iff.mp hy
        exact ⟨_, _, ht, fun _ => rfl⟩
      obtain ⟨user, huser, rfl⟩ := h
      exact .inr (.inr ⟨user, huser, hid.symm⟩)
  | _ => cases hpart

/-- Noting the use of a client changes nothing else. -/
theorem unused_of_touch {t t' : Auth.ClientTable} {id : UUID} {now : ℤ}
    (h : t.update (·.id = id) (fun row => { row with lastUsedAt := some now, updatedAt := now }) =
      some t') : t'.rows.map unused = t.rows.map unused := by
  rw [Table.rows_of_ofRows h, List.map_map]
  apply List.map_congr_left
  intro row _
  rw [Function.comp_apply]
  split_ifs <;> rfl

/-- In every run of the server, whatever is called is permitted by the calls before, and the
answers of these are those of the store. -/
theorem completely_mediated {rely : Store → Store → Prop}
    {pre post : List (Event Store Op Op.Answer)} {e : Event Store Op Op.Answer}
    (hrun : Program.Run (act srv) rely s (serve srv r) (pre ++ e :: post)) :
    Genuine srv (pre.map Event.call) ∧ Permitted srv r (pre.map Event.call) e.op :=
  ⟨genuine_of_run hrun, (serve_keeps hrun).1.1⟩

end

theorem completely_mediated_sample : ∃ pre e post,
    Program.Run (act sampleServer) (· = ·) sampleSession (serve sampleServer sampleThemeRequest)
      (pre ++ e :: post) ∧
    Permitted sampleServer sampleThemeRequest (pre.map Event.call) e.op :=
  ⟨_, _, _, run_sampleTheme, (completely_mediated run_sampleTheme).2⟩

end SecureShare.Handlers
