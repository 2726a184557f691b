import SecureShare.Handlers.Response

/-!
# Credentials in a run

Who acts in a request, as the answers of its calls show it. A contract that admits the calls
of the checks knows after them whom they have accepted.
-/
namespace SecureShare.Handlers
open Go Library Http
open Auth (Session Actor APIClientWithSecret)
open Delivery (storable)

abbrev Calls := List (Call Op Op.Answer)

/-- The names of the actor can be stored. -/
def Named (actor : Actor) : Prop := storable 255 actor.actorID ∧ storable 255 actor.username

section
variable (srv : Server) (r : Request) (calls : Calls)

/-- The row of the Basic client was found and passed all checks. -/
def ClientFound (permission : Text) (client : APIClientWithSecret) : Prop :=
  ∃ clientID secret now, r.basicAuth = some (clientID, secret) ∧
    ⟨.apiClientByClientID clientID, some client⟩ ∈ calls ∧ ⟨.now, now⟩ ∈ calls ∧
    clientAccepted srv permission (now.getD 0) secret client = true

/-- The client was accepted, which notes its use. -/
def ClientAccepted (permission : Text) (client : APIClientWithSecret) : Prop :=
  ClientFound srv r calls permission client ∧ ∃ answer, ⟨.touchAPIClient client.id, answer⟩ ∈ calls

/-- The session of the cookie was found. -/
def SessionFound (session : Session) : Prop :=
  ∃ id, cookieID srv r = some id ∧ ⟨.sessionByHash id, some session⟩ ∈ calls

/-- A Basic client was accepted, whatever for. -/
def BasicAccepted : Prop := ∃ permission client, ClientAccepted srv r calls permission client

/-- The session of the cookie was found, and the request carries its CSRF token. -/
def CSRFAccepted : Prop :=
  ∃ session, SessionFound srv r calls session ∧ srv.validCSRF r session = true

/-- A credential was accepted with which state may be changed. -/
def Authorised : Prop :=
  BasicAccepted srv r calls ∨ srv.acceptsBearer r = true ∨ CSRFAccepted srv r calls

/-- The actors that a credential of the request has been accepted for. -/
inductive Acting (permission : Text) : Actor → Prop
  | client (client : APIClientWithSecret) : ClientAccepted srv r calls permission client →
      Acting permission (clientActor client)
  | key : srv.acceptsBearer r = true → Acting permission legacyActor
  | session (session : Session) : SessionFound srv r calls session →
      permission ∈ session.permissions → Acting permission (sessionActor session)

/-- The calls of the checks are allowed, and what they find has names that can be stored. -/
structure Admits (allowed : Calls → Op → Prop) (possible : (op : Op) → op.Answer → Prop) : Prop where
  now : ∀ calls, allowed calls .now
  session : ∀ calls id, cookieID srv r = some id → allowed calls (.sessionByHash id)
  client : ∀ calls clientID secret, r.basicAuth = some (clientID, secret) →
    allowed calls (.apiClientByClientID clientID)
  touch : ∀ calls permission client, ClientFound srv r calls permission client →
    allowed calls (.touchAPIClient client.id)
  sessionNamed : ∀ id session, possible (.sessionByHash id) session → Named (sessionActor session)
  clientNamed : ∀ clientID client, possible (.apiClientByClientID clientID) client →
    Named (clientActor client)

end

section
variable {srv : Server} {r : Request} {calls calls' : Calls} {permission : Text}

theorem ClientFound.mono {client : APIClientWithSecret}
    (h : ClientFound srv r calls permission client) (hsub : calls ⊆ calls') :
    ClientFound srv r calls' permission client := by
  obtain ⟨clientID, secret, now, hbasic, hclient, hnow, haccepted⟩ := h
  exact ⟨clientID, secret, now, hbasic, hsub hclient, hsub hnow, haccepted⟩

theorem ClientAccepted.mono {client : APIClientWithSecret}
    (h : ClientAccepted srv r calls permission client) (hsub : calls ⊆ calls') :
    ClientAccepted srv r calls' permission client := by
  obtain ⟨hfound, answer, htouch⟩ := h
  exact ⟨hfound.mono hsub, answer, hsub htouch⟩

theorem SessionFound.mono {session : Session} (h : SessionFound srv r calls session)
    (hsub : calls ⊆ calls') : SessionFound srv r calls' session := by
  obtain ⟨id, hid, hfound⟩ := h
  exact ⟨id, hid, hsub hfound⟩

theorem BasicAccepted.mono (h : BasicAccepted srv r calls) (hsub : calls ⊆ calls') :
    BasicAccepted srv r calls' := by
  obtain ⟨permission, client, haccepted⟩ := h
  exact ⟨permission, client, haccepted.mono hsub⟩

theorem Authorised.mono (h : Authorised srv r calls) (hsub : calls ⊆ calls') :
    Authorised srv r calls' := by
  rcases h with hclient | hbearer | ⟨session, hsession, hcsrf⟩
  · exact .inl (hclient.mono hsub)
  · exact .inr (.inl hbearer)
  · exact .inr (.inr ⟨session, hsession.mono hsub, hcsrf⟩)

theorem Acting.mono {actor : Actor} (h : Acting srv r calls permission actor)
    (hsub : calls ⊆ calls') : Acting srv r calls' permission actor := by
  cases h with
  | client client haccepted => exact .client client (haccepted.mono hsub)
  | key hbearer => exact .key hbearer
  | session session hsession hpermission => exact .session session (hsession.mono hsub) hpermission

variable {allowed : Calls → Op → Prop} {possible : (op : Op) → op.Answer → Prop}

theorem apiClientActor_meets (h : Admits srv r allowed possible) :
    (apiClientActor srv r permission).Meets (.ofCalls allowed possible)
      (fun calls found => ∀ actor ∈ found, Named actor ∧ ∃ client,
        ClientAccepted srv r calls permission client ∧ actor = clientActor client) calls := by
  unfold apiClientActor
  split
  · simp
  · next clientID secret hbasic =>
    split_ifs with hempty hhttps
    · simp
    · simp
    · simp only [perform, Program.meets_bind, Program.meets_perform]
      refine ⟨h.client _ _ _ hbasic, fun found hpossible => ?_⟩
      cases found with
      | none => simp
      | some client =>
          simp only [Program.meets_bind, Program.meets_perform]
          refine ⟨h.now _, fun now _ => ?_⟩
          split_ifs with haccepted
          · have hfound : ClientFound srv r
                (calls ++ [⟨.apiClientByClientID clientID, some client⟩] ++ [⟨.now, now⟩])
                permission client :=
              ⟨clientID, secret, now, hbasic, by simp, by simp, haccepted⟩
            simp only [Program.meets_bind, Program.meets_perform]
            refine ⟨h.touch _ _ _ hfound, fun answer _ => ?_⟩
            rintro actor ⟨⟩
            refine ⟨h.clientNamed _ _ (hpossible client rfl), client, ⟨?_, answer, ?_⟩, rfl⟩
            · exact hfound.mono (List.subset_append_left _ _)
            · exact List.mem_append_right _ (List.mem_singleton.mpr rfl)
          · simp

theorem fromRequest_meets
    (h : ∀ calls id, cookieID srv r = some id → allowed calls (.sessionByHash id)) :
    (fromRequest srv r).Meets (.ofCalls allowed possible)
      (fun calls found => ∀ session ∈ found, SessionFound srv r calls session ∧
        ∃ id, possible (.sessionByHash id) session) calls := by
  unfold fromRequest
  split
  · simp
  · next id hid =>
    refine ⟨h _ _ hid, fun found hpossible session hsession => ⟨⟨id, hid, ?_⟩, id, ?_⟩⟩
    · obtain rfl := Option.mem_def.mp hsession
      exact List.mem_append_right _ (List.mem_singleton.mpr rfl)
    · exact hpossible session hsession

/-- Whom `requireAPI` accepts, and that state may be changed if the method does. -/
theorem requireAPI_meets (h : Admits srv r allowed possible) :
    (requireAPI srv r permission).Meets (.ofCalls allowed possible)
      (fun calls result => ∀ actor, result = .ok actor → Acting srv r calls permission actor ∧
        Named actor ∧ (isStateChanging r.method = true → Authorised srv r calls)) calls := by
  unfold requireAPI
  refine (apiClientActor_meets h).bind fun calls found hfound => ?_
  cases found with
  | some actor =>
      rintro _ ⟨⟩
      obtain ⟨hnamed, client, haccepted, rfl⟩ := hfound _ rfl
      exact ⟨.client client haccepted, hnamed, fun _ => .inl ⟨permission, client, haccepted⟩⟩
  | none =>
      dsimp only
      split_ifs with hbearer
      · rintro _ ⟨⟩
        exact ⟨.key hbearer, ⟨by decide, by decide⟩, fun _ => .inr (.inl hbearer)⟩
      · unfold requireSession
        refine (fromRequest_meets h.session).bind fun calls found hfound => ?_
        cases found with
        | none => simp
        | some session =>
            dsimp only
            split_ifs with hpermission hcsrf
            · simp
            · rintro _ ⟨⟩
              obtain ⟨hsession, id, hpossible⟩ := hfound session rfl
              refine ⟨.session session hsession hpermission, h.sessionNamed id session hpossible,
                fun hchanging => .inr (.inr ⟨session, hsession, ?_⟩)⟩
              by_contra hinvalid
              exact hcsrf ⟨hchanging, hinvalid⟩
            · simp

end

end SecureShare.Handlers
