import SecureShare.Auth.Clients
import SecureShare.Delivery.Create

/-!
# Revoked API clients

Revoking writes the status of a client without looking at it, and so does disabling;
enabling and rotating look at an earlier answer of the database. A client that was
revoked therefore comes back when it is disabled and enabled, or when a request
writes what it decided before. As long as no such write reaches a revoked row, no
request that comes later is accepted with the client's ID.
-/
namespace SecureShare.Auth
open Go Library Library.Transition
open Library.Interleaving (System State Reply)
open Delivery (UUID)

/-- The client whose status the next step of the call writes, other than by revoking. -/
def ClientCall.overwrites : ClientCall → Option UUID
  | .disable id .updating | .enable id (.updating _) | .rotateSecret id (.updating _) => some id
  | _ => none

/-- The next step of the call does not write over a revoked status. -/
def SparesRevoked (_ : ClientInputs) (t : ClientTable) (call : ClientCall) : Prop :=
  ∀ r ∈ call.overwrites.bind fun id => t.find (·.id) id, r.status ≠ .revoked

instance (inputs : ClientInputs) (t : ClientTable) (call : ClientCall) :
    Decidable (SparesRevoked inputs t call) := by
  unfold SparesRevoked
  infer_instance

/-- The row with this ID is revoked, and its client ID is this one. -/
def Revoked (id : UUID) (clientID : Text) (t : ClientTable) : Prop :=
  ∃ r, t.find (·.id) id = some r ∧ r.status = .revoked ∧ r.clientID = clientID

variable {hmac : Hmac} {cfg : Config} {inputs : ClientInputs} {t t' : ClientTable}
  {call call' : ClientCall} {id : UUID} {clientID : Text}

theorem Repository.updateAPIClient_eq_some {now : ℤ} {client : APIClient}
    {f : APIClientWithSecret → APIClientWithSecret}
    (h : Repository.updateAPIClient now t id f = some (t', client)) :
    t.update (·.id = id) (fun r => { f r with updatedAt := now }) = some t' ∧
      ∃ r ∈ t.rows, r.id = id ∧
        client = ({ f r with updatedAt := now } : APIClientWithSecret).toAPIClient := by
  obtain ⟨u, hu, h⟩ := Option.bind_eq_some_iff.mp h
  obtain ⟨r, hr, heq⟩ := Option.map_eq_some_iff.mp h
  cases heq
  obtain ⟨r₀, hr₀, hid, rfl⟩ := Table.mem_returning.mp (List.mem_of_mem_head? hr)
  exact ⟨hu, r₀, hr₀, by simpa using hid, rfl⟩

/-- What a step can do to the table. -/
inductive ClientEffect (call : ClientCall) (t t' : ClientTable) : Prop
  | unchanged : t' = t → ClientEffect call t t'
  | inserted (r : APIClientWithSecret) : t.insert r = some t' → ClientEffect call t t'
  | updated (id : UUID) (f : APIClientWithSecret → APIClientWithSecret) :
      t.update (·.id = id) f = some t' →
      (∀ r, (f r).id = r.id ∧ (f r).clientID = r.clientID) →
      (∀ r, (f r).status = r.status) ∨ (∀ r, (f r).status = .revoked) ∨
        call.overwrites = some id →
      ClientEffect call t t'

/-- An UPDATE of one row, which may have failed. -/
theorem updateAPIClient_effect {reply : Reply} {now : ℤ}
    {f : APIClientWithSecret → APIClientWithSecret}
    (hkeys : ∀ r, (f r).id = r.id ∧ (f r).clientID = r.clientID)
    (h : (∀ r, (f r).status = .revoked) ∨ call.overwrites = some id) :
    ClientEffect call t (reply.apply t (Repository.updateAPIClient now t id f)).1 := by
  rcases reply.apply_store t (Repository.updateAPIClient now t id f) with hsame | ⟨c, hc⟩
  · exact .unchanged hsame
  · exact .updated id _ (Repository.updateAPIClient_eq_some hc).1 hkeys (.inr h)

theorem createAPIClient_effect {reply : Reply} {now : ℤ} {params : APIClientCreate}
    {secretHash : Text} : ClientEffect call t
      (reply.apply t (Repository.createAPIClient now t id params clientID secretHash)).1 := by
  rcases reply.apply_store t
    (Repository.createAPIClient now t id params clientID secretHash) with hsame | ⟨c, hc⟩
  · exact .unchanged hsame
  · generalize (reply.apply t (Repository.createAPIClient now t id params clientID
      secretHash)).1 = t' at hc ⊢
    unfold Repository.createAPIClient at hc
    dsimp only at hc
    split_ifs at hc
    obtain ⟨u, hu, heq⟩ := Option.map_eq_some_iff.mp hc
    cases heq
    exact .inserted _ hu

theorem touchAPIClient_effect {reply : Reply} {now : ℤ} :
    ClientEffect call t (reply.apply t (Repository.touchAPIClient now t id)).1 := by
  rcases reply.apply_store t (Repository.touchAPIClient now t id) with hsame | ⟨c, hc⟩
  · exact .unchanged hsame
  · obtain ⟨t', ht', heq⟩ := Option.map_eq_some_iff.mp hc
    exact .updated id _ (ht'.trans (congrArg some (Prod.mk.inj heq).1)) (fun _ => ⟨rfl, rfl⟩)
      (.inl fun _ => rfl)

theorem ClientCall.advance_effect (h : call.advance hmac cfg inputs t = some (t', call')) :
    ClientEffect call t t' := by
  unfold ClientCall.advance at h
  split at h <;> cases h
  · unfold handleCreate
    split
    · exact createAPIClient_effect
    · exact .unchanged rfl
  · exact updateAPIClient_effect (fun _ => ⟨rfl, rfl⟩) (.inr rfl)
  · exact .unchanged rfl
  · exact updateAPIClient_effect (fun _ => ⟨rfl, rfl⟩) (.inr rfl)
  · exact updateAPIClient_effect (fun _ => ⟨rfl, rfl⟩) (.inl fun _ => rfl)
  · exact .unchanged rfl
  · next id current =>
    unfold handleRotate
    cases inputs.secretBytes with
    | none => exact .unchanged rfl
    | some secretBytes => exact updateAPIClient_effect (fun _ => ⟨rfl, rfl⟩) (.inr rfl)
  · exact .unchanged rfl
  · exact touchAPIClient_effect

/-- A step that spares revoked rows leaves a revoked client revoked. -/
theorem Revoked.advance (hrevoked : Revoked id clientID t) (hspares : SparesRevoked inputs t call)
    (h : call.advance hmac cfg inputs t = some (t', call')) : Revoked id clientID t' := by
  obtain ⟨r, hr, hstatus, hclientID⟩ := hrevoked
  cases ClientCall.advance_effect h with
  | unchanged heq =>
      rw [heq]
      exact ⟨r, hr, hstatus, hclientID⟩
  | inserted r' hinsert =>
      refine ⟨r, ?_, hstatus, hclientID⟩
      rw [Table.find_insert _ hinsert, if_neg, hr]
      intro heq
      have hclash : apiClients.Clash r' r := .inl (heq.trans (Table.key_of_find hr).symm)
      have hpairwise := t'.distinct
      rw [Table.rows_of_ofRows hinsert, List.pairwise_cons] at hpairwise
      exact hpairwise.1 r (Table.mem_of_find hr) hclash
  | updated id' f hupdate hkeys hstatus' =>
      have hfind := Table.find_update (fun r : APIClientWithSecret => r.id) hupdate
        (fun r => (hkeys r).1) id
      rw [hr, Option.map_some] at hfind
      refine ⟨_, hfind, ?_, ?_⟩
      · split_ifs with hid
        · have hid : id = id' := (Table.key_of_find hr).symm.trans (by simpa using hid)
          rcases hstatus' with hkeep | hrevoke | hover
          · rw [hkeep, hstatus]
          · exact hrevoke r
          · refine absurd hstatus (hspares r ?_)
            rw [hover, Option.bind_some, ← hid]
            exact hr
        · exact hstatus
      · split_ifs
        · rw [(hkeys r).2, hclientID]
        · exact hclientID

/-- Only a revocation reports one. -/
theorem ClientCall.eq_revoke_of_advance {client : APIClient}
    (h : call.advance hmac cfg inputs t = some (t', .revoke id (.answered client))) :
    call = .revoke id .updating := by
  unfold ClientCall.advance at h
  split at h
  case h_5 =>
    have heq := (Prod.mk.inj (Option.some.inj h)).2
    injection heq with hid
    rw [hid]
  all_goals cases h

/-- A successful revocation leaves the client revoked. -/
theorem Revoked.of_answered {client : APIClient}
    (h : (ClientCall.revoke id .updating).advance hmac cfg inputs t =
      some (t', .revoke id (.answered client))) : Revoked id client.clientID t' := by
  simp only [ClientCall.advance, handleStatus, Option.some.injEq, Prod.mk.injEq,
    ClientCall.revoke.injEq, true_and] at h
  obtain ⟨rfl, hanswer⟩ := h
  split at hanswer
  · next c hc =>
    cases hanswer
    obtain ⟨hupdate, r, hr, hid, hclient⟩ :=
      Repository.updateAPIClient_eq_some (Reply.apply_answer hc)
    have hr : t.find (·.id) id = some r := (Table.find_eq_some isKey_clientRowID).mpr ⟨hr, hid⟩
    have hfind := Table.find_update (fun r : APIClientWithSecret => r.id) hupdate
      (fun _ => rfl) id
    rw [hr, Option.map_some, if_pos (by simpa using hid)] at hfind
    exact ⟨_, hfind, rfl, by rw [hclient]⟩
  · cases hanswer

/-- A request with the ID of a revoked client is refused. -/
theorem Revoked.apiClientActor {request : ClientRequest} {secret : Text}
    (hrevoked : Revoked id clientID t) (hrequest : request.basicAuth = some (clientID, secret)) :
    apiClientActor hmac cfg inputs t request = .refused := by
  obtain ⟨r, hr, hstatus, rfl⟩ := hrevoked
  have hfind : t.find (·.clientID) r.clientID = some r :=
    (Table.find_eq_some isKey_clientID).mpr ⟨Table.mem_of_find hr, rfl⟩
  rw [Auth.apiClientActor, hrequest]
  dsimp only
  split_ifs
  · rfl
  · rfl
  · split
    · rfl
    · next client hclient =>
      have hanswer := Reply.apply_answer hclient
      rw [Repository.apiClientByClientID, hfind, Option.map_some] at hanswer
      obtain rfl := (Prod.mk.inj (Option.some.inj hanswer)).2
      simp [acceptedClient, isAPIClientUsable, hstatus]

section main
variable {s u : State ClientTable ClientCall}

/-- What is known of a call: a client that it has reported as revoked is revoked. -/
def Reported (t : ClientTable) : ClientCall → Prop
  | .revoke id (.answered client) => Revoked id client.clientID t
  | _ => True

theorem reported_of_reachable {table : ClientTable}
    (h : Reachable ((clientSystem hmac cfg).guarded SparesRevoked).step ⟨table, []⟩ s) {i : ℕ}
    (hcall : s.calls[i]? = some call) : Reported s.store call := by
  refine (System.assertions_of_reachable (J := fun _ => True) (K := fun _ => Reported) h trivial
    (fun i k hk => ?_) ?_ ?_).2 i call hcall
  · cases hk
  · intro _ t request _ _
    cases request <;> trivial
  · intro inputs i t call t' call' _ hcall hadvance
    obtain ⟨hspares, (hadvance : call.advance hmac cfg inputs t = some (t', call'))⟩ :=
      System.guarded_eq_some hadvance
    refine ⟨trivial, ?_, ?_⟩
    · cases call' with
      | revoke id phase =>
          cases phase with
          | answered client =>
              obtain rfl := ClientCall.eq_revoke_of_advance hadvance
              exact Revoked.of_answered hadvance
          | updating | refused => trivial
      | create | disable | enable | rotateSecret | authenticate => trivial
    · intro j other _ hother
      cases other with
      | revoke id phase =>
          cases phase with
          | answered client => exact Revoked.advance hother hspares hadvance
          | updating | refused => trivial
      | create | disable | enable | rotateSecret | authenticate => trivial

/-- A request that authenticates with this client ID has not been accepted. -/
def NotAccepted (clientID : Text) : ClientCall → Prop
  | .authenticate request phase =>
    (∃ secret, request.basicAuth = some (clientID, secret)) → phase = .finding ∨ phase = .refused
  | _ => True

theorem NotAccepted.advance (hcall : NotAccepted clientID call) (hrow : Revoked id clientID t)
    (h : call.advance hmac cfg inputs t = some (t', call')) : NotAccepted clientID call' := by
  cases call with
  | authenticate request phase =>
      cases phase with
      | finding =>
          cases h
          intro hrequest
          obtain ⟨secret, hrequest⟩ := hrequest
          exact .inr (hrow.apiClientActor hrequest)
      | touching id actor =>
          cases h
          intro hrequest
          rcases hcall hrequest with h | h <;> cases h
      | accepted | refused => cases h
  | create _ phase | disable _ phase | enable _ phase | revoke _ phase | rotateSecret _ phase =>
      cases phase <;> cases h <;> trivial

end main

/-- An HMAC that keeps the message, and a healthy database. -/
def sampleHmac : Hmac := fun _ message => message.map fun c => UInt8.ofNat c.toNat

def sampleClientInputs : ClientInputs where
  reply := .answered
  databaseNow := 0
  now := 0
  id := some 1
  clientIDBytes := some [1, 2, 3]
  secretBytes := some [4, 5, 6]

def sampleClient : APIClient where
  id := 1
  name := "ci".toList
  clientID := "ssc_AQID".toList
  ownerUserID := none
  status := .active
  scopes := ["secret:create".toList]
  lastUsedAt := none
  expiresAt := none
  createdAt := 0
  updatedAt := 0

def sampleClientRequest : ClientRequest where
  basicAuth := some (sampleClient.clientID, "sscs_BAUG".toList)
  https := false
  permission := "secret:create".toList

def sampleClientSystem := clientSystem sampleHmac Delivery.sampleConfig

open Library.Interleaving (Action)

/-- A client is created and revoked. -/
def sampleRevocation : List (Action ClientAction ClientInputs) :=
  [.spawn (.create ⟨"ci".toList, none, ["secret:create".toList], none⟩),
    .advance 0 sampleClientInputs, .spawn (.revoke 1), .advance 1 sampleClientInputs]

/-- A later request presents the client's ID and secret. -/
def sampleAuthentication (i : ℕ) : List (Action ClientAction ClientInputs) :=
  [.spawn (.authenticate sampleClientRequest), .advance i sampleClientInputs,
    .advance i sampleClientInputs]

theorem sampleRevocation_calls :
    ((run (sampleClientSystem.guarded SparesRevoked).step ⟨.empty, []⟩ sampleRevocation).map
      State.calls) = some
        [.create ⟨"ci".toList, none, ["secret:create".toList], none⟩
          (.created sampleClient "sscs_BAUG".toList),
        .revoke 1 (.answered { sampleClient with status := .revoked })] := by
  decide +kernel

/-- After the revocation the client is disabled and enabled again. -/
def sampleRevival : List (Action ClientAction ClientInputs) :=
  [.spawn (.disable 1), .advance 2 sampleClientInputs, .spawn (.enable 1),
    .advance 3 sampleClientInputs, .advance 3 sampleClientInputs]

end SecureShare.Auth
